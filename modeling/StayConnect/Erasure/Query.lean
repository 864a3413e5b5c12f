import StayConnect.Erasure.Commit
import StayConnect.Transition

/-!
# Erasures in the database and in the copies

An erasure is one database transaction that appends to the ledger. Before it, the copies are reconciled with the database; within it,
the entries are made durable in both copies and confirmed; if confirming or committing fails they are taken back out. The copies and
their storage work here; any step of the database may fail, and a commit that failed may have been made.

Statements from the first append to the end of the transaction, and a reconciliation, hold the ledger's advisory lock, so each is one
step. A transaction whose commit failed no longer holds it: taking its entries back is a step of its own.
-/

namespace StayConnect.Erasure
open Framing (Bytes)

structure Row where
  entry : Entry
  confirmed : Bool

/-- `ledger_meta` and `erasure_ledger`, in the order of the numbers. -/
structure Database where
  id : String
  rows : List Row

namespace Database

def export' (db : Database) : List Entry := (db.rows.filter (·.confirmed)).map (·.entry)

def pending (db : Database) : List Entry := (db.rows.filter fun r => !r.confirmed).map (·.entry)

end Database

/-- What a statement gives `ledger_append`, with the time it reads. -/
structure Append where
  kind : String
  tenant : String
  site : String
  atUS : Int
  body : String

def appendedKinds : List String := ["erase", "request_answered", "assisted_closed", "checkpoint", "seal"]

def appendedEntry (k : MACKey) (c : Codec) (db : Database) (a : Append) : Entry :=
  let es := db.rows.map (·.entry)
  let e : Entry :=
    ⟨db.id, headSeq es + 1, (es.getLast?.map (·.hash)).getD genesisPrev, a.kind, a.tenant, a.site, a.atUS, a.body, "", ""⟩
  { e with hash := computeHash c e, mac := k.entryMAC (computeHash c e) }

def ledgerAppend (cfg : Config) (c : Codec) (db : Database) (a : Append) : Option Database :=
  if a.kind ∈ appendedKinds then
    cfg.key.map fun k => { db with rows := db.rows ++ [⟨appendedEntry k c db a, false⟩] }
  else none

/-- Everything a statement appends. -/
def ledgerAppends (cfg : Config) (c : Codec) (db : Database) : List Append → Option Database
  | [] => some db
  | a :: as => (ledgerAppend cfg c db a).bind fun db => ledgerAppends cfg c db as

def Row.confirm (hash : String) (r : Row) : Row := if !r.confirmed && r.entry.hash = hash then { r with confirmed := true } else r

/-- The loop of `ledger_confirm_checked`, with the number of rows it confirmed. -/
def confirmRows : List String → List Row → List Row × Nat
  | [], rows => (rows, 0)
  | hash :: hashes, rows =>
    let n := (rows.filter fun r => !r.confirmed && r.entry.hash = hash).length
    let (rows, more) := confirmRows hashes (rows.map (·.confirm hash))
    (rows, n + more)

/-- `ledger_confirm_checked`, given the receipts made with the ledger's key. -/
def ledgerConfirmChecked (db : Database) (hashes : List String) : Option Database :=
  if hashes.isEmpty then none
  else
    let (rows, n) := confirmRows hashes db.rows
    if n = hashes.length then some { db with rows } else none

/-- `Abort`, where the last entries of the local copy are exactly those given. -/
def abort (cfg : Config) (c : Codec) (now : Int) (entries : List Entry) (s : Copies) : Copies :=
  match readLocal cfg c s.file with
  | none => s
  | some cur =>
    if cur.err.isSome || entries.isEmpty then s
    else if cur.entries.length < entries.length then s
    else
      let keep := cur.entries.take (cur.entries.length - entries.length)
      if (cur.entries.drop (cur.entries.length - entries.length)).map (·.hash) = entries.map (·.hash) then
        let file := s.file.map (·.take (encode c keep).length)
        ⟨file, (pushExternal cfg c true .none now file s.storage).storage⟩
      else s

/-- How a commit of the database ends; one that failed may have been made. -/
inductive Outcome where
  | done
  | failed (made : Bool)
  deriving DecidableEq, Repr

def Outcome.settle (o : Outcome) (before after : Database) : Database :=
  match o with
  | .done => after
  | .failed made => if made then after else before

structure ReconcileFaults where
  /-- Up to reading the ledger. -/
  start : Bool
  apply : Bool
  /-- The number of entries that could be applied again before one failed. -/
  replay : Option Nat
  commit : Outcome

/-- The strongest seal among the entries, read off their bodies. -/
def strongestSeal (k : Option MACKey) (readSeal : String → Option (Int × String)) (es : List Entry) : Option (Int × String) :=
  (es.filter fun e => e.kind = "seal" && k.any (·.entryOK e)).foldl
    (fun best e => match readSeal e.body, best with
      | none, best => best
      | some s, none => some s
      | some s, some b => if b.1 < s.1 then some s else some b) none

/-- Whether an entry that is not held may be applied: by its own code, or by a seal where it has none. -/
def covered (k : Option MACKey) (best : Option (Int × String)) (e : Entry) : Bool :=
  if e.mac ≠ "" then k.any (·.entryOK e)
  else best.any fun s => decide (e.seq ≤ s.1 ∧ (e.seq < s.1 ∨ e.hash = s.2))

inductive Applied where
  | all
  | failed
  | conflict
  deriving DecidableEq, Repr

def applyEntries (k : Option MACKey) (c : Codec) (best : Option (Int × String)) : Option Nat → Database → List Entry → Database × Applied
  | _, db, [] => (db, .all)
  | left, db, e :: es =>
    let held := db.rows.map (·.entry)
    if e.ledger ≠ db.id then (db, .conflict)
    else if e.seq ≤ headSeq held then
      if (held.find? (·.seq = e.seq)).map (·.hash) ≠ some e.hash then (db, .conflict) else applyEntries k c best left db es
    else if e.seq ≠ headSeq held + 1 ∨ e.prev ≠ (held.getLast?.map (·.hash)).getD genesisPrev ∨ computeHash c e ≠ e.hash then (db, .conflict)
    else if !covered k best e then (db, .conflict)
    else if left = some 0 then (db, .failed)
    else applyEntries k c best (left.map (· - 1)) { db with rows := db.rows ++ [⟨e, true⟩] } es

def ledgerApply (k : Option MACKey) (c : Codec) (readSeal : String → Option (Int × String)) (replay : Option Nat) (adopt : Bool)
    (db : Database) (es : List Entry) : Database × Applied :=
  let db := if adopt && es.head?.any (fun e => e.seq = 1 && e.ledger ≠ db.id) && db.rows.length = 1 then ⟨ledgerID es, []⟩ else db
  applyEntries k c (strongestSeal k readSeal (es ++ db.rows.map (·.entry))) replay db es

/-- `AppendLocal`: entries of the database the file lacks; whether it worked. -/
def appendMissing (cfg : Config) (c : Codec) (es : List Entry) (file : Option Bytes) : Option Bytes × Bool :=
  match readLocal cfg c file with
  | none => if extendsHead c [] es then appendLocal cfg c .none es 0 file else (file, false)
  | some cur =>
    if cur.err.isSome then (file, false)
    else if es.isEmpty then (file, true)
    else if extendsHead c cur.entries es then appendLocal cfg c .none es cur.validBytes file
    else (file, false)

def objectOK (c : Codec) (st : Storage) (h : HeadInfo) : Bool := (st.get h.object).any fun b => c.sha256 b = h.objectSHA256

/-- The secondary copy against the local one: whether they are in step, whether there is a problem, and the storage after it. -/
def reconcileExternal (cfg : Config) (c : Codec) (now : Int) (file : Option Bytes) (st : Storage) : Bool × Bool × Storage :=
  let es := validEntries c file
  let push :=
    let pushed := pushExternal cfg c false .none now file st
    match pushed.result, readExternalHead cfg .none pushed.storage with
    | .ok (), .ok (some h) =>
      if objectOK c pushed.storage h && h.seq = headSeq es && h.hash = headHash es && h.ledger = ledgerID es then
        (true, false, pushed.storage)
      else (false, true, pushed.storage)
    | _, _ => (false, true, pushed.storage)
  match readExternalHead cfg .none st with
  | .error _ => (false, true, st)
  | .ok none => push
  | .ok (some h) =>
    if h.ledger ≠ ledgerID es ∧ headSeq es = 1 ∧ 1 < h.seq then (false, true, st)
    else if h.ledger = ledgerID es ∧ headSeq es < h.seq then (false, true, st)
    else if objectOK c st h && h.seq = headSeq es && h.hash = headHash es && h.plainSHA256 = c.sha256 (validData c file) &&
        h.cipherFP = (cfg.cipher.map (·.fingerprint)).getD "" then (true, false, st)
    else push

/-- What a reconciliation leaves: whether erasures are available, the database and the copies. -/
structure Reconciled where
  available : Bool
  db : Database
  copies : Copies

/-- The local copy before it is compared with the database: rebuilt where it is missing, damaged or of another ledger. -/
def healLocal (cfg : Config) (c : Codec) (db : Database) (file : Option Bytes) : Option Bytes :=
  let rebuilt := some (encode c db.export')
  let file := match readLocal cfg c file with
    | none => rebuilt
    | some cur =>
      if cur.err.isSome then rebuilt
      else if cur.torn then file.map (·.take cur.validBytes)
      else file
  let es := validEntries c file
  if es.length = 1 ∧ ledgerID es ≠ db.id then rebuilt else file

/-- `ledgerReconcile`. A statement that fails leaves the transaction failed. -/
def reconcile (cfg : Config) (c : Codec) (readSeal : String → Option (Int × String)) (f : ReconcileFaults) (now : Int) (db : Database)
    (s : Copies) : Reconciled :=
  let held := db.export'
  if f.start || !decide (Chain c held) then ⟨false, db, s⟩
  else
    let file := healLocal cfg c db s.file
    let es := validEntries c file
    -- the two disagree about an erasure
    if ((es.zip held).any fun (a, b) => a.hash ≠ b.hash) then ⟨false, db, { s with file }⟩
    else
      let (file, appended) := if es.length < held.length then appendMissing cfg c (held.drop es.length) file else (file, true)
      let adopt : Bool := held.length = 1 && ledgerID es ≠ db.id
      let (after, applied) :=
        if held.length < es.length && !f.apply then
          ledgerApply cfg.key c readSeal f.replay adopt db (if adopt then es else es.drop held.length)
        else (db, .all)
      let failed := held.length < es.length && f.apply
      if applied = .conflict then ⟨false, db, { s with file }⟩
      else
        let (inSync, problem, storage) := reconcileExternal cfg c now file s.storage
        let committed := f.commit = .done && !failed
        ⟨inSync && !problem && appended && !failed && applied = .all && committed && db.pending.isEmpty,
          if failed then db else f.commit.settle db after, ⟨file, storage⟩⟩

structure TxFaults where
  /-- Up to the statement, which may also refuse. -/
  statement : Bool
  pending : Bool
  confirm : Bool
  commit : Outcome

/-- What a transaction leaves: whether the erasure was reported as done, with its entries, and what is still to be taken back. -/
structure Transacted where
  db : Database
  copies : Copies
  entries : List Entry
  reported : Bool
  abort : Bool

/-- `ledgerQueryAfter`, after the copies were reconciled. -/
def ledgerQueryAfter (cfg : Config) (c : Codec) (f : TxFaults) (now : Int) (appends : List Append) (db : Database) (s : Copies) :
    Transacted :=
  match if f.statement then none else ledgerAppends cfg c db appends with
  | none => ⟨db, s, [], false, false⟩
  | some tx =>
    let entries := tx.pending
    if f.pending then ⟨db, s, entries, false, false⟩
    else if entries.isEmpty then ⟨f.commit.settle db tx, s, entries, f.commit = .done, false⟩
    -- more than the service takes at once
    else if 100 < entries.length then ⟨db, s, entries, false, false⟩
    else match commit cfg c .none now entries s with
      | (.error _, s) => ⟨db, s, entries, false, false⟩
      | (.ok (), s) =>
        match if f.confirm then none else ledgerConfirmChecked tx (entries.map (·.hash)) with
        | none => ⟨db, abort cfg c now entries s, entries, false, false⟩
        | some tx => ⟨f.commit.settle db tx, s, entries, f.commit = .done, f.commit ≠ .done⟩

structure System where
  db : Database
  copies : Copies
  /-- The calls that found both copies in step and have not begun their transaction. -/
  ready : List Nat
  /-- The calls whose commit failed, with the entries they are to take back. -/
  aborting : List (Nat × List Entry)
  /-- The entries of the erasures reported as done. -/
  reported : List Entry

inductive Step where
  | prepare (call : Nat) (f : ReconcileFaults) (now : Int)
  | transact (call : Nat) (f : TxFaults) (now : Int) (appends : List Append)
  | abort (call : Nat) (now : Int)

def System.step (cfg : Config) (c : Codec) (readSeal : String → Option (Int × String)) (s : System) : Step → Option System
  | .prepare call f now =>
    let r := reconcile cfg c readSeal f now s.db s.copies
    some { s with db := r.db, copies := r.copies, ready := if r.available then call :: s.ready else s.ready }
  | .transact call f now appends =>
    if call ∈ s.ready then
      let t := ledgerQueryAfter cfg c f now appends s.db s.copies
      some
        { db := t.db
          copies := t.copies
          ready := s.ready.erase call
          aborting := if t.abort then (call, t.entries) :: s.aborting else s.aborting
          reported := if t.reported then t.entries ++ s.reported else s.reported }
    else none
  | .abort call now =>
    match s.aborting.find? (·.1 = call) with
    | none => none
    | some a => some { s with copies := abort cfg c now a.2 s.copies, aborting := s.aborting.erase a }

end StayConnect.Erasure
