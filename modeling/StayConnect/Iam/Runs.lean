import StayConnect.Iam.Accounting
import StayConnect.Transition

/-!
# Accounting runs

The operations of the accounting services as steps on the tables. Every operation is one transaction; a
refused one leaves the tables as they were (`AcctOp.apply`). The lemmas of this module invert the counter
writers: what a committed observation did is one of the cases of `Ingested`, what a committed origin did one
of the cases of `Registered`.
-/

namespace StayConnect.Iam
open Keyed Tx

inductive AcctOp where
  | register (o : Observation)
  | ingest (o : Observation)
  | openSession (s : Session)
  | endSession (session : Nat) (t : Int) (reason : String)
  /-- The session's address or interface changed. -/
  | relocate (session : Nat) (ingress : Option String) (ip : Option Inet)
  | rebind (session e : Nat) (t : Int)
  | rollup (scope : Scope) (window : Int)
  | purge (scope : Scope) (batch : Nat) (picked : PurgePicks)
  | advance (scope : Scope)
  /-- An entitlement was activated, suspended or terminated. -/
  | setStatus (e : Nat) (status : EntitlementStatus)
  /-- Time passes. -/
  | clock (t : Int)

def AcctOp.apply (db : Db) : AcctOp → Db
  | .register o => after (registerClassOrigin o) db
  | .ingest o => after (ingestAbsoluteCounters o) db
  | .openSession s => after (Iam.openSession s) db
  | .endSession session t reason => db.endSession session t reason
  | .relocate session ingress ip =>
    { db with sessions := db.sessions.map fun s => if s.id = session then { s with ingressInterface := ingress, ip } else s }
  | .rebind session e t => after (rebindSessionEntitlement session e t) db
  | .rollup scope window => after (rollupAccountingUsage scope window) db
  | .purge scope batch picked => after (purgeAccountingDetail scope batch picked) db
  | .advance scope => after (p6AdvanceDataCrossing scope) db
  | .setStatus e status =>
    { db with entitlements := db.entitlements.map fun x => if x.id = e then { x with status } else x }
  | .clock t => { db with now := max db.now t }

/-- The accounting system: every operation may come at any time. -/
def acctStep (db : Db) (op : AcctOp) (db' : Db) : Prop := db' = op.apply db

/-- One site with an active entitlement on a quota of 100 bytes; concrete runs start here. -/
def site : Db where
  now := 0
  uuid := fun n => 100 + n
  drawn := 0
  entitlements := [⟨1, ⟨1, 1⟩, none, none, 1, none, 1, 1, .validityWindow, .fixedAt, none, .active, none, some 100, 0, 0,
    none, false, some 0, none⟩]
  planRevisions := []
  packageRevisions := []
  transitions := []
  devices := [⟨1, 7, .authorized, false, none, none, none⟩]
  authorizations := []
  sessions := []
  bindings := []
  samples := []
  checkpoints := []
  watermarks := []
  delayed := []
  progress := []
  crossings := []
  folded := []
  hours := []
  rolledUpTo := fun _ => none
  rollupSettings := fun _ => ⟨1⟩
  detailRetentionDays := fun _ => none
  networks := []
  stays := []
  events := []
  publishedResync := fun _ => none
  purchases := []
  audits := []
  graceConfig := fun _ => none
  afterCheckoutEnabled := fun _ => false
  packageMatchesPolicy := fun _ _ _ => false
  emergencyHealthy := fun _ => false
  emergencyCatalog := fun _ => none

/-- A guest session on the site's entitlement, opened at 0. -/
def guest : Session :=
  ⟨1, ⟨1, 1⟩, 1, 7, .active, 0, none, none, 0, 0, some "br0", some (.v4 5)⟩

/-- The guest's class counters at an instant. -/
def observe (epoch up down time : Int) : Observation :=
  ⟨⟨1, 1⟩, 1, some 7, some "br0", some 4101, some epoch, some up, some down, some time⟩

/-- A reading of absolute counters: the source, its epoch and where the counters stood. -/
structure Reading where
  series : Series
  epoch : Int
  up : Nat
  down : Nat

def Observation.reading (o : Observation) : Option Reading :=
  match o.sourceDevice, o.bridge, o.classMinor, o.epoch, o.up, o.down with
  | some device, some bridge, some minor, some epoch, some up, some down =>
    some ⟨⟨o.session, device, bridge, minor⟩, epoch, up.toNat, down.toNat⟩
  | _, _, _, _, _, _ => none

/-- The checkpoint moved to a new epoch. -/
def Db.rebase (db : Db) (r : Reading) (time : Int) : Db :=
  db.setCheckpoint r.series (·.rebased r.epoch r.up r.down time)

/-- A new checkpoint at the reading. -/
def Db.baseline (db : Db) (scope : Scope) (r : Reading) (time : Int) : Db :=
  { db with checkpoints := db.checkpoints ++ [.opened scope r.series r.epoch r.up r.down time] }

/-- What a committed `register_class_origin` did. -/
inductive Registered (o : Observation) (db : Db) : OriginResult → Db → Prop where
  | opened {r : Reading} {time : Int} : o.reading = some r → db.checkpoint r.series = none →
    Registered o db .originRegistered (db.baseline o.scope r time)
  | unchanged : Registered o db .originUnchanged db
  | reset {r : Reading} {cp : Checkpoint} {time : Int} : o.reading = some r →
    db.checkpoint r.series = some cp → cp.sourceEpoch < r.epoch →
    Registered o db .originReset (db.rebase r time)

/-- The sample an accepted reading makes of its growth over the checkpoint. -/
def Db.sampleOf (db : Db) (scope : Scope) (r : Reading) (cp : Checkpoint) (time : Int) : Sample :=
  { id := db.uuid db.drawn, scope, session := r.series.session, sampleSeq := db.nextSampleSeq r.series.session,
    bytesUp := r.up - cp.prevBytesUp, bytesDown := r.down - cp.prevBytesDown, sampledAt := time,
    ingestedAt := db.now }

/-- What a committed `ingest_absolute_counters` did. -/
inductive Ingested (o : Observation) (db : Db) : IngestResult → Db → Prop where
  | baselined {r : Reading} {time : Int} : o.reading = some r → db.checkpoint r.series = none →
    Ingested o db .baselined (db.baseline o.scope r time)
  | reset {r : Reading} {cp : Checkpoint} {time : Int} : o.reading = some r →
    db.checkpoint r.series = some cp → cp.sourceEpoch < r.epoch →
    Ingested o db .resetBaselined (db.rebase r time)
  | replay {late : Bool} : Ingested o db (.replay late) db
  | duplicate : Ingested o db .duplicate db
  | grown {r : Reading} {s : Session} {cp : Checkpoint} {time : Int} {e : Nat} : o.reading = some r →
    s ∈ db.sessions → s.id = r.series.session → s.ended = none →
    db.checkpoint r.series = some cp → cp.sourceEpoch = r.epoch → cp.prevBytesUp ≤ r.up → cp.prevBytesDown ≤ r.down →
    db.p3EntitlementAt r.series.session time = some e →
    (∀ r' ∈ db.samples, r'.id ≠ db.uuid db.drawn) →
    Ingested o db (if (db.frozenBy e time).isSome then .delayed else .accepted)
      (db.draw.recordDelta r.series (db.sampleOf o.scope r cp time) e r.up r.down)

section
variable {o : Observation} {db db' : Db}

lemma commits_nonNegative {a b n} : Commits (nonNegative a b) db n db' ↔ a = some (n.1 : Int) ∧ b = some (n.2 : Int) ∧ db' = db := by
  obtain ⟨up, down⟩ := n
  cases a <;> cases b <;> simp only [nonNegative, commits_throw, commits_ite, commits_pure, reduceCtorEq,
    false_and, and_false, or_false, Option.some.injEq, Prod.mk.injEq]
  constructor
  · rintro ⟨⟨h, h'⟩, ⟨rfl, rfl⟩, rfl⟩
    exact ⟨(Int.toNat_of_nonneg h).symm, (Int.toNat_of_nonneg h').symm, rfl⟩
  · rintro ⟨rfl, rfl, rfl⟩
    exact ⟨⟨Int.natCast_nonneg _, Int.natCast_nonneg _⟩, ⟨rfl, rfl⟩, rfl⟩

lemma commits_sessionInScope {scope session s} (h : Commits (sessionInScope scope session) db s db') :
    db' = db ∧ s ∈ db.sessions ∧ s.id = session ∧ s.scope = scope := by
  unfold sessionInScope at h
  rw [commits_get_bind] at h
  split at h
  case h_1 s' found =>
    obtain ⟨rfl, rfl⟩ := commits_pure.mp h
    have named := List.find?_some found
    simp only [decide_eq_true_eq] at named
    exact ⟨rfl, List.mem_of_find?_eq_some found, named.1, named.2⟩
  case h_2 => exact absurd h commits_throw

/-- Everything a committed origin implies, once. -/
lemma registerClassOrigin_cases {res} (h : Commits (registerClassOrigin o) db res db') : Registered o db res db' := by
  unfold registerClassOrigin at h
  rw [commits_bind] at h
  obtain ⟨⟨up, down⟩, _, hn, h⟩ := h
  obtain ⟨hup, hdown, rfl⟩ := commits_nonNegative.mp hn
  simp only at h
  split at h
  case h_2 => exact absurd h commits_throw
  case h_1 epoch time hepoch htime =>
    rw [commits_require_bind, commits_bind] at h
    obtain ⟨-, s, _, hs, h⟩ := h
    obtain ⟨rfl, -, hid, -⟩ := commits_sessionInScope hs
    simp only [commits_require_bind, commits_get_bind] at h
    obtain ⟨-, source, h⟩ := h
    split at h
    case h_2 => exact absurd h commits_throw
    case h_1 bridge minor hbridge hminor =>
      have reading : o.reading = some ⟨⟨s.id, s.device, bridge, minor⟩, epoch, up, down⟩ := by
        simp only [Observation.reading, source.1, hbridge, hminor, hepoch, hup, hdown, Int.toNat_natCast, hid]
      split at h
      case h_1 found =>
        simp only [commits_modify_bind, commits_pure] at h
        obtain ⟨rfl, rfl⟩ := h
        exact .opened reading found
      case h_2 cp found =>
        simp only [commits_require_bind, commits_ite, commits_modify_bind, commits_pure] at h
        obtain ⟨le, ⟨_, rfl, rfl⟩ | ⟨ne, rfl, rfl⟩⟩ := h
        · exact .unchanged
        · exact .reset reading found (lt_of_le_of_ne le (Ne.symm ne))

section
variable {s : Session} {r : Reading} {cp : Checkpoint} {time : Int} {res : IngestResult}
  (reading : o.reading = some r) (mem : s ∈ db.sessions) (hid : s.id = r.series.session) (live : s.ended = none)
  (found : db.checkpoint r.series = some cp)
include reading mem hid live found

lemma acceptDelta_cases (same : cp.sourceEpoch = r.epoch) (up : cp.prevBytesUp ≤ r.up) (down : cp.prevBytesDown ≤ r.down)
    (h : Commits (acceptDelta o s r.series cp r.up r.down time) db res db') : Ingested o db res db' := by
  unfold acceptDelta at h
  rw [commits_get_bind] at h
  split at h
  case h_1 => exact absurd h commits_throw
  case h_2 e he =>
    simp only [commits_genRandomUuid_bind, commits_require_bind, requireBigint, commits_modify_bind,
      commits_pure] at h
    obtain ⟨fresh, -, -, -, rfl, rfl⟩ := h
    rw [hid] at he ⊢
    exact .grown reading mem hid live found same up down he fresh

lemma ingestAgainst_cases
    (h : Commits (ingestAgainst o s r.series cp r.epoch r.up r.down time) db res db') : Ingested o db res db' := by
  unfold ingestAgainst at h
  simp only [commits_require_bind, commits_ite, commits_modify_bind, commits_pure] at h
  obtain ⟨le, ⟨lt, rfl, rfl⟩ | ⟨ge, -, ⟨-, rfl, rfl⟩ | ⟨-, ⟨up, down⟩, h⟩⟩⟩ := h
  · exact .reset reading found lt
  · cases cp.lastClassification
    case accepted => exact .replay
    case delayed => exact .replay
    all_goals exact .duplicate
  · exact acceptDelta_cases reading mem hid live found (le_antisymm le (not_lt.mp ge)) up down h

end

/-- Everything a committed observation implies, once. -/
lemma ingestAbsoluteCounters_cases {res} (h : Commits (ingestAbsoluteCounters o) db res db') : Ingested o db res db' := by
  unfold ingestAbsoluteCounters at h
  rw [commits_bind] at h
  obtain ⟨⟨up, down⟩, _, hn, h⟩ := h
  obtain ⟨hup, hdown, rfl⟩ := commits_nonNegative.mp hn
  simp only at h
  split at h
  case h_2 => exact absurd h commits_throw
  case h_1 time bridge minor epoch htime hbridge hminor hepoch =>
    rw [commits_require_bind, commits_bind] at h
    obtain ⟨-, s, _, hs, h⟩ := h
    obtain ⟨rfl, mem, hid, -⟩ := commits_sessionInScope hs
    simp only [commits_require_bind, commits_get_bind] at h
    obtain ⟨device, -, -, -, -, live, h⟩ := h
    have reading : o.reading = some ⟨⟨s.id, s.device, bridge, minor⟩, epoch, up, down⟩ := by
      simp only [Observation.reading, device, hbridge, hminor, hepoch, hup, hdown, Int.toNat_natCast, hid]
    split at h
    case h_1 found =>
      simp only [commits_modify_bind, commits_pure] at h
      obtain ⟨rfl, rfl⟩ := h
      exact .baselined reading found
    case h_2 cp found => exact ingestAgainst_cases reading mem rfl live found h

end

end StayConnect.Iam
