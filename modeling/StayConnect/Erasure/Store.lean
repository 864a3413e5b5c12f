import StayConnect.Erasure.Assess
import StayConnect.Erasure.File

/-!
# The two copies of the ledger

The local file and the copy at the secondary storage, with the note that describes it. `commit` appends to the file, reads back,
replaces the secondary copy and its note, each read back, and puts the file back if the secondary copy fails. Any operation on the
file or the storage may fail (`Faults`); truncating the file does not. Writing to the storage may fail before or after its effect.
-/

namespace StayConnect.Erasure
open Framing (Bytes)

inductive ObjectName where
  | plain
  | sealed

/-- The note beside the secondary copy. -/
structure HeadInfo where
  ledger : String
  seq : Int
  hash : String
  entries : Nat
  plainSHA256 : String
  object : ObjectName
  objectSHA256 : String
  encrypted : Bool
  cipherFP : String
  updatedAt : Int
  mac : String

/-- The ledger key of an appliance, as what it makes of a hash and of a note. -/
structure MACKey where
  entryMAC : String → String
  headMAC : HeadInfo → String

def MACKey.entryOK (k : MACKey) (e : Entry) : Bool := e.mac ≠ "" && e.hash ≠ "" && e.mac = k.entryMAC e.hash

/-- A code a note carries that the key does not make. -/
def MACKey.rejects (k : MACKey) (h : HeadInfo) : Bool := h.mac ≠ "" && h.mac ≠ k.headMAC { h with mac := "" }

/-- Encryption to the backup key holders. -/
structure Cipher where
  fingerprint : String
  lock : Bytes → Bytes
  unlock : Bytes → Option Bytes
  unlock_lock : ∀ plain, unlock (lock plain) = some plain

structure Config where
  key : Option MACKey
  cipher : Option Cipher

inductive NoteFile where
  | unreadable
  | note (h : HeadInfo)

structure Storage where
  plain : Option Bytes
  sealed : Option Bytes
  note : Option NoteFile

def Storage.get (st : Storage) : ObjectName → Option Bytes
  | .plain => st.plain
  | .sealed => st.sealed

def Storage.put (st : Storage) (name : ObjectName) (object : Bytes) : Storage :=
  match name with
  | .plain => { st with plain := some object }
  | .sealed => { st with sealed := some object }

/-- A copy kept under the other name is removed. -/
def Storage.removeOther (st : Storage) (name : ObjectName) : Storage :=
  match name with
  | .plain => { st with sealed := none }
  | .sealed => { st with plain := none }

/-- How a write to the storage goes. -/
inductive Write where
  | done
  | failedBefore
  | failedAfter
  deriving DecidableEq, Repr

structure Faults where
  readLocal : Bool
  mkdir : Bool
  openFile : Bool
  /-- How much of the data was written when writing fails. -/
  write : Option Nat
  sync : Bool
  close : Bool
  readBack : Bool
  readPush : Bool
  getNote : Bool
  getObject : Bool
  encrypt : Bool
  putObject : Write
  getObjectBack : Bool
  putNote : Write
  getNoteBack : Bool
  remove : Bool

def Faults.none : Faults :=
  ⟨false, false, false, .none, false, false, false, false, false, false, false, .done, false, .done, false, false⟩

inductive HeadError where
  | unreachable
  | unreadable
  | unauthentic

/-- `readExternalHeadFrom`: the note, where it can be read and is authentic. -/
def readExternalHead (cfg : Config) (f : Faults) (st : Storage) : Except HeadError (Option HeadInfo) :=
  if f.getNote then .error .unreachable
  else match st.note with
    | none => .ok none
    | some .unreadable => .error .unreadable
    | some (.note h) =>
      if cfg.key.any (·.rejects h) then .error .unauthentic
      else if f.getObject then .error .unreachable
      else .ok (some h)

inductive PushError where
  | localUnreadable
  | localInvalid
  | externalAhead
  | externalFork
  | externalOtherLedger
  | encrypt
  | putObject
  | objectNotReadBack
  | putNote
  | noteNotReadBack

/-- What the note says against overwriting; a note that cannot be read says nothing. -/
def overwriteError (head : Except HeadError (Option HeadInfo)) (es : List Entry) : Option PushError :=
  match head with
  | .ok (some prev) =>
    if prev.ledger = ledgerID es ∧ headSeq es < prev.seq then some .externalAhead
    else if prev.ledger = ledgerID es ∧ prev.seq = headSeq es ∧ prev.hash ≠ headHash es then some .externalFork
    else if prev.ledger ≠ ledgerID es ∧ 0 < prev.seq then some .externalOtherLedger
    else none
  | _ => none

/-- The object a push writes, its name, and the note that describes it. -/
structure Outgoing where
  name : ObjectName
  object : Bytes
  info : HeadInfo

def outgoing (cfg : Config) (c : Codec) (now : Int) (plain : Bytes) (es : List Entry) : Outgoing :=
  let (name, object, fingerprint) := match cfg.cipher with
    | none => (ObjectName.plain, plain, "")
    | some cipher => (ObjectName.sealed, cipher.lock plain, cipher.fingerprint)
  let info : HeadInfo :=
    { ledger := ledgerID es
      seq := headSeq es
      hash := headHash es
      entries := es.length
      plainSHA256 := c.sha256 plain
      object := name
      objectSHA256 := c.sha256 object
      encrypted := cfg.cipher.isSome
      cipherFP := fingerprint
      updatedAt := now
      mac := "" }
  ⟨name, object, { info with mac := (cfg.key.map (·.headMAC info)).getD "" }⟩

/-- The result of a push, the storage after it, and whether anything was written to it. -/
structure Pushed where
  result : Except PushError Unit
  storage : Storage
  wrote : Bool

/-- Object and note, each written and read back. -/
def writeOutgoing (f : Faults) (o : Outgoing) (st : Storage) : Pushed :=
  match f.putObject with
  | .failedBefore => ⟨.error .putObject, st, false⟩
  | .failedAfter => ⟨.error .putObject, st.put o.name o.object, true⟩
  | .done =>
    let st := st.put o.name o.object
    if f.getObjectBack then ⟨.error .objectNotReadBack, st, true⟩
    else match f.putNote with
      | .failedBefore => ⟨.error .putNote, st, true⟩
      | .failedAfter => ⟨.error .putNote, { st with note := some (.note o.info) }, true⟩
      | .done =>
        let st := { st with note := some (.note o.info) }
        if f.getNoteBack then ⟨.error .noteNotReadBack, st, true⟩
        else ⟨.ok (), if f.remove then st else st.removeOther o.name, true⟩

def pushExternal (cfg : Config) (c : Codec) (force : Bool) (f : Faults) (now : Int) (file : Option Bytes) (st : Storage) : Pushed :=
  match if f.readPush then none else file with
  | none => ⟨.error .localUnreadable, st, false⟩
  | some plain =>
    let p := parseChain c plain
    if p.err.isSome || p.entries.isEmpty then ⟨.error .localInvalid, st, false⟩
    else match if force then none else overwriteError (readExternalHead cfg f st) p.entries with
      | some err => ⟨.error err, st, false⟩
      | none =>
        if f.encrypt then ⟨.error .encrypt, st, false⟩
        else writeOutgoing f (outgoing cfg c now (plain.take p.validBytes) p.entries) st

structure Copies where
  file : Option Bytes
  storage : Storage

/-- `checked`: a code that does not check damages the copy. -/
def checked (cfg : Config) {c : Codec} (p : Parse c) : Parse c :=
  match cfg.key, p.err with
  | some k, none =>
    match p.entries.find? fun e => e.mac ≠ "" && !k.entryOK e with
    | some e => { p with err := some (.unauthentic e.seq) }
    | none => p
  | _, _ => p

/-- `ReadLocal`: an absent or empty file holds no ledger. -/
def readLocal (cfg : Config) (c : Codec) (file : Option Bytes) : Option (Parse c) :=
  match file with
  | none | some [] => none
  | some data => some (checked cfg (parseChain c data))

inductive CommitError where
  | localRead
  | localDamaged
  | conflict
  | unauthentic
  | otherLedger
  | localWrite
  | external (err : PushError)

/-- An entry already held under its number is skipped; another one under that number is a conflict. -/
def selectFresh (held : List Entry) : List Entry → Except CommitError (List Entry)
  | [] => .ok []
  | e :: es =>
    if 1 ≤ e.seq ∧ e.seq ≤ headSeq held then
      if hashAt held e.seq ≠ some e.hash then .error .conflict else selectFresh held es
    else (selectFresh held es).map (e :: ·)

/-- `Extends`: only number, hash and ledger of the head are known. -/
def extendsHead (c : Codec) (held next : List Entry) : Bool :=
  let prev := held.getLast?.map fun h =>
    { (⟨"", h.seq, "", "", "", "", 0, "", h.hash, ""⟩ : Entry) with ledger := ledgerID next }
  decide (Continues c prev next)

def writeAt (base data : Bytes) (size : Nat) : Bytes := base.take size ++ data ++ base.drop (size + data.length)

/-- `appendLocal`: the file after it, and whether it returned without an error. -/
def appendLocal (cfg : Config) (c : Codec) (f : Faults) (fresh : List Entry) (size : Nat) (file : Option Bytes) : Option Bytes × Bool :=
  if f.mkdir || f.openFile then (file, false)
  else
    let base := file.getD []
    let data := encode c fresh
    match f.write with
    | some k => (some ((writeAt base (data.take k) size).take size), false)
    | none =>
      let written := writeAt base data size
      if f.sync then (some (written.take size), false)
      -- a file that cannot be closed keeps what was written
      else if f.close then (some written, false)
      else if f.readBack then (some (written.take size), false)
      else match readLocal cfg c (some written) with
        | none => (some (written.take size), false)
        | some back =>
          if back.err.isSome || back.torn || headSeq back.entries ≠ headSeq fresh || headHash back.entries ≠ headHash fresh then
            (some (written.take size), false)
          else (some written, true)

/-- The part of `Commit` after the local copy was read: its entries, the length of their lines, and the file cut to them. -/
def commitOver (cfg : Config) (c : Codec) (f : Faults) (now : Int) (entries held : List Entry) (size : Nat) (s : Copies) :
    Except CommitError Unit × Copies :=
  match selectFresh held entries with
  | .error err => (.error err, s)
  | .ok fresh =>
    if cfg.key.any fun k => fresh.any fun e => !k.entryOK e then (.error .unauthentic, s)
    else if fresh.isEmpty then
      let pushed := pushExternal cfg c false f now s.file s.storage
      (pushed.result.mapError .external, { s with storage := pushed.storage })
    else if !held.isEmpty && ledgerID fresh ≠ ledgerID held then (.error .otherLedger, s)
    else if !extendsHead c held fresh then (.error .conflict, s)
    else
      let (file, appended) := appendLocal cfg c f fresh size s.file
      if !appended then (.error .localWrite, { s with file })
      else
        let pushed := pushExternal cfg c false f now file s.storage
        match pushed.result with
        | .ok () => (.ok (), ⟨file, pushed.storage⟩)
        | .error err => (.error (.external err), ⟨file.map (·.take size), pushed.storage⟩)

def commit (cfg : Config) (c : Codec) (f : Faults) (now : Int) (entries : List Entry) (s : Copies) : Except CommitError Unit × Copies :=
  if entries.isEmpty then (.ok (), s)
  else if f.readLocal then (.error .localRead, s)
  else match readLocal cfg c s.file with
    | none => commitOver cfg c f now entries [] 0 s
    | some cur =>
      if cur.err.isSome then (.error .localDamaged, s)
      else commitOver cfg c f now entries cur.entries cur.validBytes
        { s with file := if cur.torn then s.file.map (·.take cur.validBytes) else s.file }

end StayConnect.Erasure
