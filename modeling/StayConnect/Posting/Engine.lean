import StayConnect.Posting.Db
import StayConnect.Transition

/-!
# The posting engine

`Engine.RunOnce`, `RecoverOrphanedAttempts` and `Requeue` of `internal/posting`, cut at their transaction
boundaries, with the database functions they call (`posting_outbox_defer`,
`p4_posting_abort_before_send`) and the operator's side of the same tables
(`record_posting_review_action`, `p4_posting_review_apply`, `posting_outbox_requeue_parked`, the recovery
hold and its reconciliation). A pass of `RunOnce` goes through the phases of `Phase`; a crash drops a pass
in any phase, and with it the uncommitted claim of an open transaction. `rowLock` and `laneLock` are what
an open claim holds: the outbox row, and the lane's place in `outbox_one_inflight_per_interface`.
-/

namespace StayConnect.Posting

structure Claim where
  posting : Nat
  iface : Nat
  attemptNo : Nat

/-- What `SendPS` returned: a matched PA, a `NotTransmitted` error with its reason, any other error. -/
inductive SendResult where
  | answered (as : String)
  | notTransmitted (reason : String)
  | inconclusive

/-- What `RunOnce` decides between the claim and the attempt: the pinned evidence, the gate and DARK. -/
inductive Verdict where
  | proceed
  | dark
  | decline (code : String)
  | abortBeforeSend (reason : String)
  deriving DecidableEq, Repr

/-- Where a pass of `RunOnce` stands. -/
inductive Phase where
  | idle
  | claimed (c : Claim)
  | attempted (c : Claim) (pn : Nat)
  | answered (c : Claim) (res : SendResult)

inductive DeferKind where
  | notSent
  | declined

namespace Db

/-- `2 s` doubling to `5 min`, by the number of refusals. -/
def deferDelay (n : Nat) : Nat :=
  min 300 (2 * 2 ^ min (n - 1) 10)

/-- `posting_outbox_defer`. -/
def deferRow (db : Db) (kind : DeferKind) (reason : String) (r : OutboxRow) : OutboxRow :=
  match kind with
  | .notSent =>
    let n := r.notSentCount + 1
    { r with state := .queued, notSentCount := n, notBefore := db.now + deferDelay n }
  | .declined =>
    let n := r.declineCount + 1
    if db.parkAfterDeclines.getD 10 ≤ n then
      { r with state := .heldRecovery, declineCount := n, parkedReason := some reason }
    else
      { r with state := .queued, declineCount := n, notBefore := db.now + deferDelay n }

@[inherit_doc deferRow]
def defer (db : Db) (p : Nat) (kind : DeferKind) (reason : String) : Option Db :=
  db.updateOutbox false p (fun r => r.state == .inFlight || r.state == .queued)
    (db.deferRow kind reason)

/-- Whether an attempt of the posting may have been transmitted. -/
def mayHaveSent (db : Db) (p : Nat) : Bool :=
  (db.attemptsOf p).any fun a => a.outcome != .notSent

/-- The claiming `UPDATE` of `ClaimNext`, as the rest of its transaction sees the row. -/
def claimRow (db : Db) (p : Nat) : Db :=
  { db with
    outbox := db.outbox.map fun r => if r.posting == p then { r with state := .inFlight } else r }

def allocatePNumber (db : Db) (iface : Nat) : Db :=
  { db with
    nextPNumber := Function.update db.nextPNumber iface (db.nextPNumber iface + 1) }

/-- The claim transaction of `RunOnce` after `ClaimNext`, up to its commit. -/
def concludeClaim (db : Db) (c : Claim) (v : Verdict) : Option Db :=
  let tx := db.claimRow c.posting
  match v with
  | .proceed =>
    (tx.allocatePNumber c.iface).insertAttempt c.posting c.iface c.attemptNo (tx.nextPNumber c.iface)
  | .dark => tx.setState c.posting .queued
  | .decline code => tx.defer c.posting .declined code
  | .abortBeforeSend _ =>
    if tx.mayHaveSent c.posting then tx.setState c.posting .heldRecovery
    else
      tx.updateOutbox false c.posting (fun r => r.state == .queued || r.state == .inFlight)
        fun r => { r with state := .done }

/-- `settle`: the transaction that records the outcome of a send. -/
def settle (db : Db) (c : Claim) (res : SendResult) (unproven : Bool) : Option Db :=
  match res with
  | .answered as =>
    if unproven then do
      (← db.settleAttempt c.posting c.attemptNo .unknown (some as)).setState c.posting .heldRecovery
    else do
      (← db.settleAttempt c.posting c.attemptNo .acked (some as)).setState c.posting .done
  | .notTransmitted reason => do
    let db' ← db.settleAttempt c.posting c.attemptNo .notSent none
    -- a room move is retried at once with the new room; anything else backs off
    if "ROOM_CHANGED".toList.isPrefixOf reason.toList then db'.setState c.posting .queued
    else db'.defer c.posting .notSent reason
  | .inconclusive => do
    (← db.settleAttempt c.posting c.attemptNo .unknown none).setState c.posting .heldRecovery

/-- The attempts `RecoverOrphanedAttempts` lists: SENDING, old enough, their outbox row in flight. -/
def orphans (db : Db) (olderThan : Nat) : List (Nat × Nat) :=
  (db.attempts.filter fun a =>
    a.outcome == .sending && a.sentAt + olderThan < db.now &&
      db.outbox.any fun r => r.posting == a.posting && r.state == .inFlight).map
    fun a => (a.posting, a.attemptNo)

/-- The transaction of `RecoverOrphanedAttempts` for one listed attempt. -/
def recoverOne (db : Db) (p n : Nat) : Option Db := do
  (← db.settleAttempt p n .unknown none).setState p .heldRecovery

/-- `Requeue`; no affected row is `ErrRetryNotAuthed`. -/
def requeue (db : Db) (p : Nat) : Option Db :=
  let authorized : Bool :=
    match db.review p with
    | some rs =>
      rs.terminalAction == some .confirmNotPostedRetry && rs.retryAuthorizedAttemptNo.isSome
    | none => false
  db.updateOutbox false p (fun r => r.state == .heldRecovery && authorized)
    fun r => { r with state := .queued }

/-- The outbox part of `p4_posting_review_apply` for a CONFIRM_NOT_POSTED_RETRY decision. -/
def reviewApply (db : Db) (p : Nat) : Option Db :=
  let authorized : Bool :=
    match db.review p with
    | some rs =>
      rs.terminalAction == some .confirmNotPostedRetry && rs.retryAuthorizedAttemptNo.isSome &&
        !rs.consumed
    | none => false
  db.updateOutbox false p (fun r => r.state == .heldRecovery && authorized)
    fun r => { r with state := .queued }

def requeueParked (db : Db) (p : Nat) : Option Db :=
  if db.outbox.any (fun r =>
      r.posting == p && r.state == .heldRecovery && r.parkedReason.isSome) && !db.mayHaveSent p then
    db.updateOutbox true p (fun _ => true) fun r =>
      { r with state := .queued, declineCount := 0, parkedReason := none, notBefore := db.now }
  else none

/-- The action/state matrix of `record_posting_review_action` over the latest attempt. -/
def reviewMatrix (la : Option Attempt) (action : ReviewAction) : Bool :=
  match action, la with
  | .confirmNotPostedRetry, some a =>
    !(a.outcome == .acked && a.paAsStatus == some "OK") && a.outcome != .sending
  | .createReversal, some a =>
    a.outcome == .unknown || (a.outcome == .acked && a.paAsStatus == some "OK")
  | _, _ => true

/-- `record_posting_review_action` by an actor with a reason and evidence. -/
def recordReview (db : Db) (p : Nat) (action : ReviewAction) (expectedVersion : Option Nat) :
    Option Db :=
  let st := (db.review p).getD ⟨0, none, none, false, 0⟩
  let known := db.outbox.any fun r => r.posting == p
  let current := expectedVersion == none || expectedVersion == some st.reviewVersion
  if known && current then
    match action with
    | .escalate =>
      some { db with
        review := Function.update db.review p (some
          { st with escalationCount := st.escalationCount + 1, reviewVersion := st.reviewVersion + 1 }) }
    | action =>
      if (db.lastAttempt p).isSome && st.terminalAction == none &&
          reviewMatrix (db.lastAttempt p) action then
        some { db with
          review := Function.update db.review p (some
            { st with
              terminalAction := some action
              retryAuthorizedAttemptNo :=
                if action = .confirmNotPostedRetry then some (db.nextAttemptNo p) else none
              reviewVersion := st.reviewVersion + 1 }) }
      else none
  else none

/-- `p4_hold_financial_rails`: queued and in-flight work is held. -/
def holdRails (db : Db) : Db :=
  { db with
    recoveryActive := true
    outbox := db.outbox.map fun r =>
      if r.state == .queued || r.state == .inFlight then { r with state := .heldRecovery } else r }

/-- The terminal resolutions of a held row (CONFIRMED_COMPLETED, ABANDONED). -/
def reconcileDone (db : Db) (p : Nat) : Option Db :=
  db.updateOutbox true p (fun r => r.state == .heldRecovery) fun r => { r with state := .done }

/-- `InsertPosting`: the posting and its QUEUED row, unless the posting exists. -/
def insertPosting (db : Db) (p iface : Nat) : Option Db :=
  if !db.recoveryActive && db.outbox.all fun r => r.posting != p then
    some { db with
      outbox := db.outbox ++
        [{ posting := p, iface := iface, state := .queued, notBefore := db.now, notSentCount := 0
           declineCount := 0, parkedReason := none }] }
  else none

end Db

/-- What the ledgers record, in commit order: attempts and review decisions. -/
inductive Event where
  | attempt (p n : Nat)
  | decision (p : Nat) (action : ReviewAction)

/-- The site: the committed tables, the passes and recovery runs in progress, and the two histories the
tables imply (`log`) and the wire has seen (`wire`: attempts whose PS bytes may have left). -/
structure State where
  db : Db
  worker : Nat → Phase
  rowLock : Nat → Option Nat
  laneLock : Nat → Option Nat
  recovery : Nat → List (Nat × Nat)
  log : List Event
  wire : List (Nat × Nat)

/-- One transaction, send, crash or clock advance. -/
inductive Act where
  | insertPosting (p iface : Nat)
  | claimNext (w iface : Nat)
  | conclude (w : Nat) (v : Verdict)
  | sendPS (w : Nat) (res : SendResult)
  | settle (w : Nat) (unproven : Bool)
  | crash (w : Nat)
  | recoverList (k olderThan : Nat)
  | recoverOne (k : Nat)
  | recoverCrash (k : Nat)
  | requeue (p : Nat)
  | reviewApply (p : Nat)
  | requeueParked (p : Nat)
  | recordReview (p : Nat) (action : ReviewAction) (expectedVersion : Option Nat)
  | holdRails
  | reconcileDone (p : Nat)
  | endRecovery
  | advance (d : Nat)

namespace State

/-- `ClaimNext`: the lane's oldest QUEUED row that no transaction holds, once its backoff is over. -/
def claimNext (s : State) (iface : Nat) : Option Claim :=
  match s.db.outbox.find? fun r =>
      r.iface == iface && r.state == .queued && (s.rowLock r.posting).isNone with
  | none => none
  | some r =>
    if r.notBefore ≤ s.db.now && !s.db.recoveryActive && (s.laneLock iface).isNone &&
        s.db.outbox.all fun o => !(o.iface == iface && o.state == .inFlight) then
      some ⟨r.posting, iface, s.db.nextAttemptNo r.posting⟩
    else none

/-- The worker's transaction ends: its locks go with it. -/
def release (s : State) (w : Nat) (c : Claim) (ph : Phase) : State :=
  { s with
    worker := Function.update s.worker w ph
    rowLock := Function.update s.rowLock c.posting none
    laneLock := Function.update s.laneLock c.iface none }

/-- The state after a statement on the outbox row of `p` by anyone but the claim that holds it. -/
def onRow (s : State) (p : Nat) (f : Db → Option Db) : Option State :=
  if (s.rowLock p).isNone then (f s.db).map fun db => { s with db := db } else none

/-- `RunOnce` after `ClaimNext`, up to the commit; an error rolls the claim back. -/
def conclude (s : State) (w : Nat) (c : Claim) (v : Verdict) : State :=
  match s.db.concludeClaim c v with
  | none => s.release w c .idle
  | some db =>
    match v with
    | .proceed =>
      { s.release w c (.attempted c (s.db.nextPNumber c.iface)) with
        db := db
        log := s.log ++ [.attempt c.posting c.attemptNo] }
    | _ => { s.release w c .idle with db := db }

/-- `SendPS` and its return; only a `NotTransmitted` error proves that no byte left. -/
def sendPS (s : State) (w : Nat) (c : Claim) (res : SendResult) : State :=
  { s with
    worker := Function.update s.worker w (.answered c res)
    wire := match res with
      | .notTransmitted _ => s.wire
      | _ => s.wire ++ [(c.posting, c.attemptNo)] }

end State

/-- The transitions of the site; `none` is a label that does not apply. -/
def step (s : State) : Act → Option State
  | .insertPosting p iface => (s.db.insertPosting p iface).map fun db => { s with db := db }
  | .claimNext w iface =>
    match s.worker w, s.claimNext iface with
    | .idle, some c =>
      some { s with
        worker := Function.update s.worker w (.claimed c)
        rowLock := Function.update s.rowLock c.posting (some w)
        laneLock := Function.update s.laneLock iface (some w) }
    | _, _ => none
  | .conclude w v =>
    match s.worker w with
    | .claimed c => some (s.conclude w c v)
    | _ => none
  | .sendPS w res =>
    match s.worker w with
    | .attempted c _ => some (s.sendPS w c res)
    | _ => none
  | .settle w unproven =>
    match s.worker w with
    | .answered c res =>
      (s.onRow c.posting fun db => db.settle c res unproven).map fun s' =>
        { s' with worker := Function.update s.worker w .idle }
    | _ => none
  | .crash w =>
    match s.worker w with
    | .claimed c => some (s.release w c .idle)
    | _ => some { s with worker := Function.update s.worker w .idle }
  | .recoverList k olderThan =>
    some { s with recovery := Function.update s.recovery k (s.db.orphans olderThan) }
  | .recoverOne k =>
    match s.recovery k with
    | [] => none
    | (p, n) :: rest =>
      (s.onRow p fun db => db.recoverOne p n).map fun s' =>
        { s' with recovery := Function.update s.recovery k rest }
  | .recoverCrash k => some { s with recovery := Function.update s.recovery k [] }
  | .requeue p => s.onRow p fun db => db.requeue p
  | .reviewApply p => s.onRow p fun db => db.reviewApply p
  | .requeueParked p => s.onRow p fun db => db.requeueParked p
  | .recordReview p action expectedVersion =>
    (s.db.recordReview p action expectedVersion).map fun db =>
      { s with db := db, log := s.log ++ [.decision p action] }
  | .holdRails =>
    if s.db.outbox.all fun r => (s.rowLock r.posting).isNone then
      some { s with db := s.db.holdRails }
    else none
  | .reconcileDone p => s.onRow p fun db => db.reconcileDone p
  | .endRecovery => some { s with db := { s.db with recoveryActive := false } }
  | .advance d => some { s with db := { s.db with now := s.db.now + d } }

/-- A site before its first posting. -/
def State.init (now : Nat) (parkAfterDeclines : Option Nat) : State where
  db :=
    { now := now
      recoveryActive := false
      parkAfterDeclines := parkAfterDeclines
      nextPNumber := fun _ => 1
      outbox := []
      attempts := []
      review := fun _ => none }
  worker := fun _ => .idle
  rowLock := fun _ => none
  laneLock := fun _ => none
  recovery := fun _ => []
  log := []
  wire := []

end StayConnect.Posting
