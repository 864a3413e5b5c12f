import StayConnect.Netd.Calls

/-!
# Proving a session active

`phase3_enforcement.go` and `phase3_journal.go`: the promotion of a session in the database, the
grace an unproven activation has, the quarantine that follows it, and the write-ahead journal the
attempts are kept in. Boot times are those of `bootNow`.
-/

namespace StayConnect.Netd

open Framing

def phase3ActivationGrace : Nat := 30000

/-- `phase3ReproveEvery` and `phase3ReproveJitter`. -/
def phase3ReproveEvery : Nat := 60000
def phase3ReproveJitter : Nat := 30000

def phase3ProofMaxAge : Nat := 300000

def modifyMem (f : Mem → Mem) : NetdM Unit := modify fun w => { w with mem := f w.mem }

def modifyPass (f : Pass → Pass) : NetdM Unit := modify fun w => { w with pass := f w.pass }

/-- `endSeries`: forget a class's generation; the quarantine outlives it. -/
def Mem.endSeries (m : Mem) (k : Key) : Mem :=
  { m with
    epochs := Function.update m.epochs k none
    classes := m.classes.erase k
    pending := Function.update m.pending k none
    leaseMem := Function.update m.leaseMem k none
    provenAt := Function.update m.provenAt k none }

def endSeries (k : Key) : NetdM Unit := modifyMem (·.endSeries k)

def noteProven (k : Key) (epoch nowBoot : Nat) : NetdM Unit :=
  modifyMem fun m => { m with provenAt := Function.update m.provenAt k (some ⟨epoch, nowBoot⟩) }

/-- A plain read called the session active. -/
def noteAnswered (k : Key) (epoch nowBoot : Nat) : NetdM Unit := do
  record (.answered k epoch)
  noteProven k epoch nowBoot

/-- `delete(p.provenAt, key)`. -/
def forgetProof (k : Key) : NetdM Unit :=
  modifyMem fun m => { m with provenAt := Function.update m.provenAt k none }

/-- The text of a class key, for its jitter. -/
def Key.text (k : Key) : Bytes := k.bridge ++ '|' :: k.session

def reproveAfter (k : Key) : Nat := phase3ReproveEvery + fnv32a k.text % phase3ReproveJitter

def Mem.recentlyProven (m : Mem) (k : Key) (epoch nowBoot : Nat) : Bool :=
  match m.provenAt k with
  | none => false
  | some p => p.epoch == epoch && (m.quarantined.lookup k).isNone
      && p.bootMs ≤ nowBoot && nowBoot - p.bootMs < reproveAfter k

def Mem.proofFresh (m : Mem) (k : Key) (epoch nowBoot : Nat) : Bool :=
  match m.provenAt k with
  | none => false
  | some p => p.epoch == epoch && p.bootMs ≤ nowBoot && nowBoot - p.bootMs < phase3ProofMaxAge

def Mem.provenKnown (m : Mem) (k : Key) (epoch : Nat) : Bool :=
  (m.provenAt k).any fun p => p.epoch == epoch

/-- The doubling loop of `quarantineBackoff`. -/
def doubleBackoff : Nat → Nat → Nat
  | 0, d => d
  | n + 1, d => if d < 900000 then doubleBackoff n (d * 2) else d

/-- `quarantineBackoff`: a minute, doubled for each strike after the first, fifteen at most. -/
def quarantineBackoff (strikes : Nat) : Nat := min (doubleBackoff (strikes - 1) 60000) 900000

def Quarantine.strike (q : Quarantine) (nowBoot : Nat) : Quarantine :=
  { q with
    strikes := q.strikes + 1
    backoffUntil := nowBoot + quarantineBackoff (q.strikes + 1)
    freshAttempt := false }

/-- `crossBoot`: an unknown boot on either side is another boot. -/
def Quarantine.crossBoot (q : Quarantine) (current : Bytes) : Bool :=
  q.bootID == [] || current == [] || q.bootID != current

/-- `plausibleBootID`: the lower-case 8-4-4-4-12 form the kernel emits. -/
def plausibleBootID (id : Bytes) : Bool :=
  let digit (c : Char) : Bool := ('0' ≤ c && c ≤ '9') || ('a' ≤ c && c ≤ 'f')
  id.length == 36 &&
    id.zipIdx.all fun p => if p.2 ∈ [8, 13, 18, 23] then p.1 == '-' else digit p.1

/-- `maxPlausibleBootMs`: one century. -/
def maxPlausibleBootMs : Nat := 100 * 365 * 24 * 60 * 60 * 1000

/-- `parseClassKey` accepts the key: one separator, both parts present. -/
def Key.canonical (trim : Bytes → Bytes) (k : Key) : Bool :=
  !k.bridge.contains '|' && !k.session.contains '|' && trim k.bridge != [] && trim k.session != []

/-- The checks `validateAttempts` makes of one record. -/
def Attempt.valid (trim : Bytes → Bytes) (a : Attempt) : Bool :=
  a.key.canonical trim && trim a.sessionID != [] && a.key.session == a.sessionID &&
  (!(a.began != 0 || a.deadline != 0 || a.backoffUntil != 0) || plausibleBootID (trim a.bootID)) &&
  a.began ≤ maxPlausibleBootMs && a.deadline ≤ maxPlausibleBootMs && a.backoffUntil ≤ maxPlausibleBootMs &&
  (!(a.began != 0 || a.deadline != 0) ||
    (a.began < a.deadline && a.deadline - a.began ≤ phase3ActivationGrace)) &&
  !(a.backoffUntil != 0 && a.strikes < 1) &&
  !(0 < a.strikes && a.backoffUntil == 0 && a.began == 0)

def validateAttempts (trim : Bytes → Bytes) (attempts : List Attempt) : Bool :=
  attempts.all (·.valid trim) && (attempts.map (·.key)).Nodup

def Mem.sessionForKey (trim : Bytes → Bytes) (m : Mem) (k : Key) : Bytes :=
  match m.classes.lookup k with
  | some c => c.sessionID
  | none => if k.canonical trim then k.session else []

def Mem.journalAttempts (trim : Bytes → Bytes) (m : Mem) : List Attempt :=
  m.quarantined.entries.map fun e =>
    { key := e.1, sessionID := m.sessionForKey trim e.1, bootID := e.2.bootID, began := e.2.began
      deadline := e.2.deadline, strikes := e.2.strikes, backoffUntil := e.2.backoffUntil }

/-- `persistAttempts`: the journal is never written in a form `load` would refuse. -/
def persistAttempts : NetdM Bool := do
  let w ← get
  let attempts := w.mem.journalAttempts w.env.trim
  if !validateAttempts w.env.trim attempts then return true
  perform fun w => { w with
    disk.journal := some ⟨w.mem.mode.tenantID, w.mem.mode.siteID, w.mem.mode.applianceID, attempts⟩ }

def setQuarantine (k : Key) (q : Quarantine) : NetdM Unit :=
  modifyMem fun m => { m with quarantined := m.quarantined.insert k q }

/-- `clearAttempt`: a failed clear is not acted on. -/
def clearAttempt (k : Key) : NetdM Unit := do
  if ((← get).mem.quarantined.lookup k).isSome then
    modifyMem fun m => { m with quarantined := m.quarantined.erase k }
    let _ ← persistAttempts

/-- `beginAttempt`: the write-ahead boundary; `true` means the guest must not be authorized. -/
def beginAttempt (k : Key) (nowBoot : Nat) : NetdM Bool := do
  if (← get).mem.unprovenUnknown then
    return (← confirm) != some true
  match ← currentBootID with
  | none => return true
  | some bootID =>
    let prev := (← get).mem.quarantined.lookup k
    let q := prev.getD {}
    -- Already begun on this boot's timeline: the existing deadline stands.
    if q.began != 0 && !q.crossBoot bootID then return false
    setQuarantine k { q with bootID, began := nowBoot, deadline := nowBoot + phase3ActivationGrace }
    if ← persistAttempts then
      -- The previous record is put back, not deleted, so its strikes are not forgotten.
      modifyMem fun m => { m with
        quarantined := match prev with
          | some p => m.quarantined.insert k p
          | none => m.quarantined.erase k }
      return true
    return false

inductive Activation where
  | proven
  | unproven
  | failed
  | ended

/-- `takeActivation`: the answer fetched ahead for this class, handed out once. -/
def takeActivation (k : Key) : NetdM (Option (Nat × Reply)) := do
  let r := (← get).pass.activations k
  modifyPass fun p => { p with activations := Function.update p.activations k none }
  return r

/-- The promotion `proveActive` acts on: fetched ahead, or asked now. -/
def promotion (k : Key) (epoch : Nat) : NetdM Reply := do
  match ← takeActivation k with
  | some (asked, r) =>
    if r = .ok && asked != epoch then record (.stale k epoch)
    return r
  | none => activate k epoch

/-- The bound of an attempt begun now, made durable; `none` when that failed. -/
def boundAttempt (k : Key) (q : Quarantine) (bootID : Bytes) (nowBoot : Nat) : NetdM (Option Quarantine) := do
  if q.began != 0 && !q.crossBoot bootID then return some q
  let q := { q with bootID, began := nowBoot, deadline := nowBoot + phase3ActivationGrace }
  setQuarantine k q
  if ← persistAttempts then
    setQuarantine k (q.strike nowBoot)
    return none
  return some q

/-- The last part of `proveActive`: neither the promotion nor the re-read showed the session active. -/
def unprovenActivation (k : Key) (nowBoot : Nat) : NetdM Activation := do
  forgetProof k
  let q := ((← get).mem.quarantined.lookup k).getD {}
  setQuarantine k q
  match ← currentBootID with
  | none =>
    -- A bound not anchored to a boot cannot be interpreted later.
    setQuarantine k (q.strike nowBoot)
    return .failed
  | some bootID =>
    match ← boundAttempt k q bootID nowBoot with
    | none => return .failed
    | some q =>
      if nowBoot ≤ q.deadline then return .unproven
      setQuarantine k { q.strike nowBoot with began := 0, deadline := 0 }
      let _ ← persistAttempts
      return .failed

/-- `proveActive`; the unproven outcomes carry a problem, the others none. -/
def proveActive (k : Key) (epoch nowBoot : Nat) : NetdM Activation := do
  let w ← get
  if w.pass.batched && w.mem.recentlyProven k epoch nowBoot then return .proven
  let known := w.pass.batched && w.mem.provenKnown k epoch && (w.mem.quarantined.lookup k).isNone
  -- Proven before and due again: a plain read answers without the promotion's row lock.
  let still ← (if known then confirm else pure none)
  if still = some true then
    noteAnswered k epoch nowBoot
    return .proven
  match ← promotion k epoch with
  | .ok =>
    noteProven k epoch nowBoot
    clearAttempt k
    return .proven
  | .ended =>
    forgetProof k
    clearAttempt k
    return .ended
  | .failed =>
    if (← confirm) = some true then
      noteAnswered k epoch nowBoot
      clearAttempt k
      return .proven
    unprovenActivation k nowBoot

def dropEnded (k : Key) : NetdM Unit := do
  modifyMem fun m => { m with pending := Function.update m.pending k none }
  forgetProof k
  clearAttempt k
  endSeries k

/-- `markEnded`: whether durable state converged. -/
def markEnded : NetdM Bool := do
  if (← get).pass.batched then
    let n ← call
    if (← get).env.isEnded n = some true then return true
    return !(← perform id)
  return !(← perform id)

end StayConnect.Netd
