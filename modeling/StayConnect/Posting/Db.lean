import Mathlib.Algebra.Ring.Nat
import Mathlib.Tactic.Lemma
import Mathlib.Data.List.MinMax
import Mathlib.Logic.Function.Basic

/-!
# The posting tables and their triggers

`iam_v2.posting_outbox`, `iam_v2.posting_attempts` and `iam_v2.posting_review_state` with the triggers that
guard them: `p4_attempt_retry_gate`, `p4_consume_retry_authorization`, `trg_posting_attempt_oneway` and
`p4_outbox_recovery_gate`. A statement a trigger refuses is `none`: the transaction it belongs to is rolled
back. A posting has one outbox row (`InsertPosting` writes both in one transaction), so the row is keyed by
its posting; an attempt is keyed by its posting and attempt number.
-/

namespace StayConnect.Posting

inductive AttemptOutcome where
  | sending
  | acked
  | unknown
  | notSent
  deriving DecidableEq, Repr

inductive OutboxState where
  | queued
  | inFlight
  | done
  | heldRecovery
  deriving DecidableEq, Repr

/-- The approved review catalog of `record_posting_review_action`. -/
inductive ReviewAction where
  | confirmPosted
  | confirmNotPostedRetry
  | confirmNotPostedAbandon
  | createReversal
  | escalate
  deriving DecidableEq, Repr

structure OutboxRow where
  posting : Nat
  iface : Nat
  state : OutboxState
  notBefore : Nat
  notSentCount : Nat
  declineCount : Nat
  parkedReason : Option String

structure Attempt where
  posting : Nat
  iface : Nat
  attemptNo : Nat
  pNumber : Nat
  sentAt : Nat
  outcome : AttemptOutcome
  paAsStatus : Option String
  deriving DecidableEq, Repr

/-- A row of `posting_review_state`; `consumed` is `retry_authorization_consumed_at IS NOT NULL`. -/
structure ReviewState where
  reviewVersion : Nat
  terminalAction : Option ReviewAction
  retryAuthorizedAttemptNo : Option Nat
  consumed : Bool
  escalationCount : Nat

/-- The committed tables of one site. -/
structure Db where
  now : Nat
  recoveryActive : Bool
  parkAfterDeclines : Option Nat
  /-- `pms_interface_pnumber_seq.next_p_number` per interface. -/
  nextPNumber : Nat → Nat
  /-- In the order `(enqueued_at, id)`. -/
  outbox : List OutboxRow
  attempts : List Attempt
  review : Nat → Option ReviewState

namespace Db

def attemptsOf (db : Db) (p : Nat) : List Attempt :=
  db.attempts.filter fun a => a.posting = p

/-- `ORDER BY attempt_no DESC LIMIT 1`. -/
def lastAttempt (db : Db) (p : Nat) : Option Attempt :=
  (db.attemptsOf p).argmax Attempt.attemptNo

/-- `coalesce(max(attempt_no),0)+1`. -/
def nextAttemptNo (db : Db) (p : Nat) : Nat :=
  match db.lastAttempt p with
  | none => 1
  | some a => a.attemptNo + 1

/-- Whether a retry authorization of the posting is outstanding. -/
def retryAuthorized (db : Db) (p : Nat) : Bool :=
  match db.review p with
  | some rs => rs.retryAuthorizedAttemptNo.isSome
  | none => false

/-- `p4_outbox_recovery_gate`: the `BEFORE UPDATE` trigger of the outbox. -/
def outboxRecoveryGate (db : Db) (reconciling : Bool) (old : OutboxRow) (new : OutboxState) : Bool :=
  !(new == .inFlight && old.state != .inFlight && db.recoveryActive) &&
  !(old.state == .heldRecovery && new != .heldRecovery && !reconciling && !db.retryAuthorized old.posting)

/-- `UPDATE posting_outbox SET … WHERE posting_id = p AND cond`, through the recovery gate. -/
def updateOutbox (db : Db) (reconciling : Bool) (p : Nat) (cond : OutboxRow → Bool)
    (f : OutboxRow → OutboxRow) : Option Db :=
  if db.outbox.all fun r =>
      !(r.posting == p && cond r) || db.outboxRecoveryGate reconciling r (f r).state then
    some { db with outbox := db.outbox.map fun r => if r.posting == p && cond r then f r else r }
  else none

def setState (db : Db) (p : Nat) (st : OutboxState) : Option Db :=
  db.updateOutbox false p (fun _ => true) fun r => { r with state := st }

/-- `p4_attempt_retry_gate`: the `BEFORE INSERT` trigger of the attempts. -/
def attemptRetryGate (db : Db) (p n : Nat) : Bool :=
  match db.lastAttempt p with
  | none => n == 1
  | some last =>
    n == last.attemptNo + 1 &&
    match last.outcome with
    | .sending => false
    | .notSent => true
    | .unknown | .acked =>
      match db.review p with
      | none => false
      | some rs =>
        rs.terminalAction == some .confirmNotPostedRetry && rs.retryAuthorizedAttemptNo == some n

/-- `p4_consume_retry_authorization`: the `AFTER INSERT` trigger of the attempts. -/
def consumeRetryAuthorization (db : Db) (p n : Nat) : Db :=
  match db.review p with
  | none => db
  | some rs =>
    if rs.terminalAction == some .confirmNotPostedRetry && rs.retryAuthorizedAttemptNo == some n then
      { db with
        review := Function.update db.review p (some
          { rs with
            retryAuthorizedAttemptNo := none
            consumed := true
            reviewVersion := rs.reviewVersion + 1 }) }
    else db

/-- The unique keys of an attempt: `(posting, attempt_no)` and `(interface, p_number)`. -/
def attemptKeysFree (db : Db) (p iface n pn : Nat) : Bool :=
  db.attempts.all fun a =>
    !(a.posting == p && a.attemptNo == n) && !(a.iface == iface && a.pNumber == pn)

/-- The row `InsertAttempt` writes: the column defaults make it SENDING, sent now. -/
def addAttempt (db : Db) (p iface n pn : Nat) : Db :=
  { db with
    attempts := db.attempts ++
      [{ posting := p, iface := iface, attemptNo := n, pNumber := pn, sentAt := db.now
         outcome := .sending, paAsStatus := none }] }

/-- `InsertAttempt`, with its triggers and unique keys. -/
def insertAttempt (db : Db) (p iface n pn : Nat) : Option Db :=
  if db.attemptRetryGate p n && db.attemptKeysFree p iface n pn then
    some ((db.addAttempt p iface n pn).consumeRetryAuthorization p n)
  else none

/-- `trg_posting_attempt_oneway`: an outcome other than SENDING is terminal. -/
def attemptOneway (old new : AttemptOutcome) : Bool :=
  old == .sending || new == old

def settleAttempt (db : Db) (p n : Nat) (outcome : AttemptOutcome) (as : Option String) : Option Db :=
  if db.attempts.all fun a =>
      !(a.posting == p && a.attemptNo == n) || attemptOneway a.outcome outcome then
    some { db with
      attempts := db.attempts.map fun a =>
        if a.posting == p && a.attemptNo == n then { a with outcome := outcome, paAsStatus := as }
        else a }
  else none

end Db

end StayConnect.Posting
