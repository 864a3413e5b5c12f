import StayConnect.Iam.Tables
import Mathlib.Data.List.Sort

/-!
# The online-time tick

`p6_tick_online_time` charges the sessions of every live entitlement that counts online time. A session is
charged in whole seconds from its watermark to its boundary, the earliest of now, its own end, the
entitlement's window and the caller's cap; what lies beyond the observation bound is recorded as skipped.
Seconds are counted in exact arithmetic on microseconds.

The model keeps what the function reads of a session as a list of `Read`s beside its result.
-/

namespace StayConnect.Online
open Keyed Iam

/-- The columns of `entitlements` the tick uses, with the pinned plan's `time_quota_seconds`. -/
structure Entitlement where
  id : Nat
  scope : Scope
  status : EntitlementStatus
  timeAccountingMode : TimeAccountingMode
  timeQuotaSeconds : Option Int
  consumedOnlineSeconds : Nat
  onlineTimeExhaustedAt : Option Int
  windowEndsAt : Option Int
  deriving DecidableEq, Repr

/-- The columns of `sessions` the tick uses. -/
structure Session where
  id : Nat
  entitlement : Nat
  state : SessionState
  started : Int
  ended : Option Int

structure Watermark where
  session : Nat
  accountedThrough : Int
  accountedSeconds : Nat
  deriving DecidableEq, Repr

structure SkippedInterval where
  session : Nat
  entitlement : Nat
  skippedFrom : Int
  skippedTo : Int
  deriving DecidableEq, Repr

structure Db where
  entitlements : List Entitlement
  sessions : List Session
  watermarks : List Watermark
  skipped : List SkippedInterval
  /-- What the adjustments of an entitlement prove of an exhaustion that was never stamped. -/
  adjustmentEvidence : Nat → Option Int

/-- The arguments of `p6_tick_online_time`. -/
structure Call where
  scope : Scope
  now : Int
  maxChargeSeconds : Option Int
  cappedEntitlements : List Nat
  caps : List Int

/-- Whole seconds charged from an instant on. -/
structure Interval where
  start : Int
  whole : Nat
  deriving DecidableEq, Repr

def Interval.stop (i : Interval) : Int := i.start + i.whole * second

/-- What a tick read of a session: its first observation, or its boundary with what it was charged. -/
inductive Read where
  | first (watermark : Int)
  | later (boundary : Int) (charged : Option Interval)
  deriving DecidableEq, Repr

def p6CountsOnlineTime : TimeAccountingMode → Option Int → Bool
  | .aggregateOnlineTime, _ => true
  | .validityWindow, some budget => 0 < budget
  | .validityWindow, none => false

/-- `v_cap`: the caller's cap of the entitlement, by its first mention. -/
def Call.cap (c : Call) (e : Nat) : Option Int := (c.cappedEntitlements.idxOf? e).bind fun i => c.caps[i]?

/-- `v_ceiling`: the earliest of now, the session's end, the window and the cap. -/
def ceiling (c : Call) (e : Entitlement) (s : Session) : Int :=
  let own := min c.now (s.ended.getD c.now)
  let windowed := e.windowEndsAt.elim own (min own)
  (c.cap e.id).elim windowed (min windowed)

namespace Db

variable (db : Db)

def watermark (session : Nat) : Option Watermark := lookup (·.session) session db.watermarks

def skip (s : Session) (start stop : Int) : Db :=
  { db with skipped := db.skipped ++ [⟨s.id, s.entitlement, start, stop⟩] }

def observe (s : Session) (t : Int) : Db := { db with watermarks := db.watermarks ++ [⟨s.id, t, 0⟩] }

/-- The watermark of a session moved, with the seconds charged. -/
def advance (s : Session) (through : Int) (whole : Nat) : Db :=
  { db with
    watermarks := db.watermarks.map fun w => if w.session = s.id then
      { w with accountedThrough := through, accountedSeconds := w.accountedSeconds + whole } else w }

/-- The sessions of an entitlement the tick reads: active ones, and ended ones not charged to their end. -/
def readable (e : Entitlement) : List Session :=
  db.sessions.filter fun s => s.entitlement == e.id &&
    (decide (s.state = .active) || s.ended.any fun t => (db.watermark s.id).any (·.accountedThrough < t))

end Db

def tickSession (c : Call) (bound : Int) (e : Entitlement) (db : Db) (s : Session) : Db × Read :=
  let top := ceiling c e s
  match db.watermark s.id with
  | none =>
    let db := if bound * second < top - s.started then db.skip s s.started top else db
    (db.observe s (max top s.started), .first (max top s.started))
  | some w =>
    let base := w.accountedThrough
    if top ≤ base then
      (db, .later top none)
    else
      let billable := min top (base + bound * second)
      let db := if billable < top then db.skip s billable top else db
      let whole := ((billable - base) / second).toNat
      let through := if billable < top then top else base + whole * second
      if whole = 0 then
        (if base < through then db.advance s through 0 else db, .later top none)
      else
        (db.advance s through whole, .later top (some ⟨base, whole⟩))

/-- The sessions of one entitlement, one after another; the reads are named by session. -/
def tickSessions (c : Call) (bound : Int) (e : Entitlement) : List Session → Db → Db × List (Nat × Read)
  | [], db => (db, [])
  | s :: rest, db =>
    let (db, read) := tickSession c bound e db s
    let (db, reads) := tickSessions c bound e rest db
    (db, (s.id, read) :: reads)

def Read.interval : Read → Option Interval
  | .first _ => none
  | .later _ charged => charged

/-- `v_starts` and `v_ends`: the intervals a tick charged. -/
def intervals (reads : List (Nat × Read)) : List Interval := reads.filterMap (·.2.interval)

/-- A quotient of microseconds as `make_interval` rounds it: to the nearest, ties to even. -/
def roundHalfEven (n d : Int) : Int :=
  let q := n / d
  if 2 * (n % d) < d then q else if d < 2 * (n % d) then q + 1 else if q % 2 = 0 then q else q + 1

/-- How many of the intervals cover the segment. -/
def rate (is : List Interval) (p₀ p₁ : Int) : Nat := is.countP fun i => i.start ≤ p₀ ∧ p₁ ≤ i.stop

/-- The piecewise walk: the first segment whose contribution reaches what was left. -/
def walk (is : List Interval) (remaining : Int) : Int → List Int → Option Int
  | acc, p₀ :: p₁ :: rest =>
    let seg := (p₁ - p₀) * rate is p₀ p₁
    if rate is p₀ p₁ = 0 then walk is remaining acc (p₁ :: rest)
    else if remaining ≤ acc + seg then some (p₀ + roundHalfEven (remaining - acc) (rate is p₀ p₁))
    else walk is remaining (acc + seg) (p₁ :: rest)
  | _, _ => none

/-- The points at which the burn rate changes. -/
def points (is : List Interval) : List Int :=
  ((is.map (·.start) ++ is.map (·.stop)).dedup).insertionSort (· ≤ ·)

/-- `v_cross`: where the remaining microseconds were used up; the last boundary when no segment reaches them. -/
def crossing (is : List Interval) (remaining : Int) : Option Int :=
  (walk is remaining 0 (points is)).or (points is).getLast?

/-- Exhausted already: nothing more is charged. -/
def Entitlement.exhausted (e : Entitlement) : Bool :=
  e.timeQuotaSeconds.any fun budget : Int => e.onlineTimeExhaustedAt.isSome || decide (budget ≤ e.consumedOnlineSeconds)

def Db.p6ExhaustionInstant (db : Db) (e : Entitlement) : Option Int :=
  e.onlineTimeExhaustedAt.or (db.adjustmentEvidence e.id)

def Db.setConsumed (db : Db) (e consumed : Nat) (exhaustedAt : Option Int) : Db :=
  { db with
    entitlements := db.entitlements.map fun x => if x.id = e then
      { x with consumedOnlineSeconds := consumed, onlineTimeExhaustedAt := exhaustedAt } else x }

/-- The counter of an entitlement after its sessions were charged. -/
def settle (e : Entitlement) (is : List Interval) (db : Db) : Db × Option (Nat × Int) :=
  let charged := total (·.whole) is
  if charged = 0 then
    (db, none)
  else
    match e.timeQuotaSeconds with
    | some budget =>
      if budget ≤ e.consumedOnlineSeconds + charged then
        let cross := crossing is (max 0 (budget - e.consumedOnlineSeconds) * second)
        (db.setConsumed e.id budget.toNat cross, cross.map (e.id, ·))
      else
        (db.setConsumed e.id (e.consumedOnlineSeconds + charged) e.onlineTimeExhaustedAt, none)
    | none => (db.setConsumed e.id (e.consumedOnlineSeconds + charged) e.onlineTimeExhaustedAt, none)

/-- One entitlement of a tick: the tables, what it reports and what it read. -/
def tickEntitlement (c : Call) (bound : Int) (db : Db) (e : Entitlement) : Db × Option (Nat × Int) × List (Nat × Read) :=
  if e.exhausted then
    (db, (db.p6ExhaustionInstant e).map (e.id, ·), [])
  else
    let (db, reads) := tickSessions c bound e (db.readable e) db
    let (db, report) := settle e (intervals reads) db
    (db, report, reads)

/-- The entitlements a tick visits. -/
def Db.due (db : Db) (c : Call) : List Entitlement :=
  db.entitlements.filter fun e => decide (e.scope = c.scope) &&
    p6CountsOnlineTime e.timeAccountingMode e.timeQuotaSeconds && decide (e.status ≠ .terminated)

def tickEntitlements (c : Call) (bound : Int) : List Entitlement → Db → Db × List (Nat × Int) × List (Nat × Read)
  | [], db => (db, [], [])
  | e :: rest, db =>
    let (db, report, reads) := tickEntitlement c bound db e
    let (db, reports, more) := tickEntitlements c bound rest db
    (db, report.toList ++ reports, reads ++ more)

/-- `p6_tick_online_time`: refused without a positive charge bound. -/
def p6TickOnlineTime (c : Call) (db : Db) : Option (Db × List (Nat × Int) × List (Nat × Read)) :=
  match c.maxChargeSeconds with
  | some bound => if 0 < bound then some (tickEntitlements c bound (db.due c) db) else none
  | none => none

/-- What happens to the tables: ticks, and sessions and entitlements that change in between. -/
inductive Op where
  | tick (c : Call)
  | openSession (s : Session)
  | activate (session : Nat)
  | endSession (session : Nat) (t : Int)
  | setStatus (e : Nat) (status : EntitlementStatus)

def Db.setSession (db : Db) (id : Nat) (f : Session → Session) : Db :=
  { db with sessions := db.sessions.map fun s => if s.id = id then f s else s }

def Op.apply (db : Db) : Op → Db
  | .tick c => (p6TickOnlineTime c db).elim db (·.1)
  | .openSession s => if db.sessions.any (·.id == s.id) then db else { db with sessions := db.sessions ++ [s] }
  | .activate id => db.setSession id fun s => if s.state = .pendingEnforcement then { s with state := .active } else s
  | .endSession id t => db.setSession id fun s => if s.ended = none then { s with state := .ended, ended := some t } else s
  | .setStatus e status =>
    { db with entitlements := db.entitlements.map fun x => if x.id = e then { x with status } else x }

/-- What an operation read of the sessions. -/
def Op.reads (db : Db) : Op → List (Nat × Read)
  | .tick c => (p6TickOnlineTime c db).elim [] (·.2.2)
  | _ => []

end StayConnect.Online
