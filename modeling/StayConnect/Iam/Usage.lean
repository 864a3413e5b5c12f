import StayConnect.Iam.Tables

/-!
# Attributed usage and the data-quota crossing

A sample belongs to the entitlement whose binding interval holds its instant. The readers below derive an
entitlement's usage from that rule: the raw samples still present and the accumulator the purge folds deleted
samples into. `p6DataCrossingFull` is the exact derivation of the instant at which the usage reached the
quota, `p6DataCrossing` the incremental one over the crossing checkpoints.
-/

namespace StayConnect.Iam
open Keyed

/-- `bound_from <= t AND (bound_until IS NULL OR bound_until > t)`. -/
def Binding.covers (b : Binding) (t : Int) : Bool := b.boundFrom ≤ t ∧ b.boundUntil.all (t < ·)

/-- `bound_from <= t AND bound_until = t`. -/
def Binding.closesAt (b : Binding) (t : Int) : Bool := b.boundFrom ≤ t ∧ b.boundUntil = some t

def Sample.bytes (r : Sample) : Nat := r.bytesUp + r.bytesDown

def FoldedUsage.bytes (a : FoldedUsage) : Nat := a.bytesUp + a.bytesDown

namespace Db

variable (db : Db)

def bound (session : Nat) (t : Int) : Bool := db.bindings.any fun b => b.session == session && b.covers t

/-- `p3_entitlement_at`: the covering binding with the highest `seq`. -/
def p3EntitlementAt (session : Nat) (t : Int) : Option Nat :=
  ((db.bindings.filter fun b => b.session == session && b.covers t).argmax (·.seq)).map (·.entitlement)

def bindingsOf (e : Nat) : List Binding := db.bindings.filter (·.entitlement == e)

/-- The raw samples a binding interval holds. -/
def covered (b : Binding) : List Sample := db.samples.filter fun r => r.session == b.session && b.covers r.sampledAt

/-- The raw samples attributed to the entitlement, one row for each binding that holds them. -/
def attributedSamples (e : Nat) : List Sample := (db.bindingsOf e).flatMap db.covered

def foldedOf (e : Nat) (arm : Arm) : List FoldedUsage :=
  db.folded.filter fun a => a.entitlement == e && decide (a.arm = arm)

/-- `COALESCE(e.data_quota_bytes, spr.data_quota_bytes)` of the entitlement with this id. -/
def quota (e : Nat) : Option Int := (lookup (·.id) e db.entitlements).bind db.quotaOf

def entitlementUsageBytes (e : Nat) (t : Int) : Nat × Nat × Nat × Option Int :=
  let folded := db.folded.filter fun a => a.entitlement == e && decide (a.arm ≠ .closingInstant) && decide (a.bucket ≤ t)
  let live := ((db.bindingsOf e).flatMap fun b => (db.covered b).filter fun r => r.sampledAt ≤ t) ++
    (db.sessions.filter fun s => s.entitlement == e && !db.bindings.any fun b => b.session == s.id).flatMap
      fun s => db.samples.filter fun r => r.session == s.id && decide (r.sampledAt ≤ t)
  (total (·.bytesUp) folded + total (·.bytesUp) live,
   total (·.bytesDown) folded + total (·.bytesDown) live,
   total (·.records) folded + live.length,
   ((folded.map (·.latestSampledAt) ++ live.map (·.sampledAt)).max?).map (min t))

/-- The sample counts for the binding: inside its interval, or at the closing instant when no other binding
of the session holds it. -/
def charged (b : Binding) (r : Sample) : Bool :=
  r.session == b.session && (b.covers r.sampledAt || (b.closesAt r.sampledAt && !db.bound r.session r.sampledAt))

def p3EntitlementDataUsage (e : Nat) : Nat :=
  total FoldedUsage.bytes (db.foldedOf e .interval) + total FoldedUsage.bytes (db.foldedOf e .closingInstant) +
    total (fun b => total Sample.bytes (db.samples.filter (db.charged b))) (db.bindingsOf e)

/-- `sum(..) OVER (ORDER BY bucket)` over the accumulator rows of the interval arm. -/
def foldedRunning (e : Nat) (a : FoldedUsage) : Nat :=
  total FoldedUsage.bytes ((db.foldedOf e .interval).filter fun a' => a'.bucket ≤ a.bucket)

def foldedBase (e : Nat) : Nat := (((db.foldedOf e .interval).map (db.foldedRunning e)).max?).getD 0

/-- The window order `(sampled_at, id)`. -/
def upTo (r r' : Sample) : Bool := r'.sampledAt < r.sampledAt ∨ (r'.sampledAt = r.sampledAt ∧ r'.id ≤ r.id)

/-- `base.folded + sum(..) OVER (ORDER BY sampled_at, id)`. -/
def rawRunning (e : Nat) (r : Sample) : Nat :=
  db.foldedBase e + total Sample.bytes ((db.attributedSamples e).filter (upTo r))

def p6DataCrossingFull (e : Nat) : Option Int :=
  (db.quota e).bind fun q =>
    (((db.foldedOf e .interval).filter fun a => q ≤ db.foldedRunning e a).map (·.latestSampledAt) ++
      ((db.attributedSamples e).filter fun r => q ≤ db.rawRunning e r).map (·.sampledAt)).min?

def progressOf (b : Binding) : Option CrossingProgress := lookup (·.binding) b.id db.progress

/-- The samples of a binding after its checkpoint; all of them without one. -/
def tail (b : Binding) : List Sample :=
  (db.covered b).filter fun r => ((db.progressOf b).elim 0 (·.examinedSeq)) < r.sampleSeq

/-- The bytes the incremental estimate has for one binding. -/
def estimateOf (b : Binding) : Nat := (db.progressOf b).elim 0 (·.countedBytes) + total Sample.bytes (db.tail b)

def p6DataCrossing (e : Nat) : Option Int :=
  (db.quota e).bind fun q =>
    match (lookup (·.entitlement) e db.crossings).bind fun st => if st.quotaBytes = q then st.crossedAt else none with
    | some t => some t
    | none => if total db.estimateOf (db.bindingsOf e) < q then none else db.p6DataCrossingFull e

/-- The bytes attributed to the entitlement: raw samples by interval and the interval arm of the accumulator. -/
def attributed (e : Nat) : Nat :=
  total FoldedUsage.bytes (db.foldedOf e .interval) + total Sample.bytes (db.attributedSamples e)

end Db

def Db.p3ExpectedClassMinor (db : Db) : Option Inet → Option Int
  | some (.v4 address) =>
    let nets := db.networks.filter fun n =>
      n.enabled && decide (17 ≤ n.masklen ∧ n.masklen ≤ 19) &&
        decide (address / 2 ^ (32 - n.masklen) = n.network / 2 ^ (32 - n.masklen))
    match nets.argmax (·.masklen) with
    | none => some (4096 + ((((address / 256 % 256) &&& 15) <<< 8) ||| (address % 256) : Nat))
    | some n =>
      let idx : Nat := address - n.network / 2 ^ (32 - n.masklen) * 2 ^ (32 - n.masklen)
      if idx < 4096 then some (4096 + idx) else some (12288 + (idx - 4096 : Nat))
  | _ => none

end StayConnect.Iam
