import StayConnect.Transition
import StayConnect.Tx

/-!
# The licence store of an appliance

The installed licence, the marks that protect it from rollback and the revocations are three files, each replaced atomically
and each with a previous copy to fall back on. A call reads the files, decides, and then makes its replacements one after the
other; a crash cuts them short. Signatures, base64 and JSON are behind `Verifier` and `Text`. Times are microseconds; 0 is the
zero time.
-/

namespace StayConnect.License
open Transition Tx

inductive DocStatus where
  | active
  | suspended
  deriving DecidableEq, Repr

structure Document where
  licenseID : String
  tenantID : String
  siteID : String
  applianceIDs : List String
  /-- What the licence names to bind it to an appliance; blank if it does not. -/
  applianceID : String
  applianceSerial : String
  hardwareFingerprint : String
  identityKeyFingerprint : String
  wanMAC : String
  licenseVersion : Int
  issuedAt : Int
  status : DocStatus
  validFrom : Int
  validUntil : Int
  offlineGraceDays : Int
  gracePeriodDays : Int
  schemaVersion : Int
  /-- Everything else the document says. -/
  terms : String
  deriving DecidableEq, Repr

structure Envelope where
  payloadB64 : String
  sigB64 : String
  keyID : String

/-- What the store relies on: the signature covers the payload, the document is read off the payload, and the digest of a
payload is its own. -/
structure Verifier where
  decodeEnvelope : String → Option Envelope
  signed : Envelope → Bool
  document : String → Option Document
  jsonValid : String → Bool
  sha256 : String → String
  sha256_injective : ∀ {s t : String}, sha256 s = sha256 t → s = t
  sha256_nonempty : ∀ s, sha256 s ≠ ""

/-- A digest of examples: a text and a dot. -/
lemma dotted_injective {s t : String} (h : s ++ "." = t ++ ".") : s = t := (String.append_left_inj ".").mp h

lemma dotted_nonempty (s : String) : s ++ "." ≠ "" := by simp

def Verifier.verify (v : Verifier) (e : Envelope) : Option Document :=
  if v.signed e then v.document e.payloadB64 else none

/-- An envelope that decodes and verifies. -/
def Verifier.read (v : Verifier) (raw : String) : Option Document := (v.decodeEnvelope raw).bind v.verify

structure StoreState where
  installedIssuedAt : Int
  highestVersion : Int
  acceptedLicenseID : String
  acceptedFingerprint : String
  highWater : Int
  lastCloudValidation : Int

def StoreState.zero : StoreState := ⟨0, 0, "", "", 0, 0⟩

/-- What a JSON file holds: a value, or text that does not parse as one (`json` when it is JSON of another shape). -/
inductive Text (α : Type) where
  | value (x : α)
  | damaged (json : Bool)

def Text.parse {α : Type} : Text α → Option α
  | .value x => some x
  | .damaged _ => none

def Text.jsonValid {α : Type} : Text α → Bool
  | .value _ => true
  | .damaged json => json

/-- A file and its previous copy. -/
structure File (α : Type) where
  content : Option α
  previous : Option α

structure Disk where
  current : File String
  state : File (Text StoreState)
  revoked : File (Text (List String))

def Disk.empty : Disk := ⟨⟨none, none⟩, ⟨none, none⟩, ⟨none, none⟩⟩

inductive Replacement where
  | currentPrev (raw : String)
  | current (raw : String)
  | statePrev (text : Text StoreState)
  | state (st : StoreState)
  | revokedPrev (text : Text (List String))
  | revoked (ids : List String)

def Disk.replace (d : Disk) : Replacement → Disk
  | .currentPrev raw => { d with current := { d.current with previous := some raw } }
  | .current raw => { d with current := { d.current with content := some raw } }
  | .statePrev text => { d with state := { d.state with previous := some text } }
  | .state st => { d with state := { d.state with content := some (.value st) } }
  | .revokedPrev text => { d with revoked := { d.revoked with previous := some text } }
  | .revoked ids => { d with revoked := { d.revoked with content := some (.value ids) } }

def Disk.replaceAll (d : Disk) (rs : List Replacement) : Disk := rs.foldl Disk.replace d

inductive Error where
  | malformed
  | notExist
  | stateDamaged
  | rollback
  | noLicense
  deriving DecidableEq, Repr

/-- A file that cannot be read falls back to its previous copy. -/
def File.readOrPrev {α β : Type} (f : File α) (parse : α → Option β) : Except Error β :=
  match f.content.bind parse with
  | some x => .ok x
  | none =>
    if f.content.isNone && f.previous.isNone then .error .notExist
    else match f.previous.bind parse with
      | some x => .ok x
      | none => .error .stateDamaged

def Disk.readState (d : Disk) : Except Error StoreState :=
  match d.state.readOrPrev Text.parse with
  | .error .notExist => .ok .zero
  | r => r

def Disk.readRevoked (d : Disk) : Except Error (List String) :=
  match d.revoked.readOrPrev Text.parse with
  | .error .notExist => .ok []
  | r => r

/-- `writeDurable`: a file that is well-formed becomes the previous copy first. -/
def writeCurrent (v : Verifier) (d : Disk) (raw : String) : List Replacement :=
  ((d.current.content.filter v.jsonValid).map Replacement.currentPrev).toList ++ [.current raw]

def writeState (d : Disk) (st : StoreState) : List Replacement :=
  ((d.state.content.filter Text.jsonValid).map Replacement.statePrev).toList ++ [.state st]

def writeRevoked (d : Disk) (ids : List String) : List Replacement :=
  ((d.revoked.content.filter Text.jsonValid).map Replacement.revokedPrev).toList ++ [.revoked ids]

def StoreState.advanceHighWater (st : StoreState) (now : Int) : StoreState :=
  if st.highWater < now then { st with highWater := now } else st

/-- A document the version guard refuses: older than what was accepted, or another one of the same version. -/
def StoreState.refuses (st : StoreState) (doc : Document) (fingerprint : String) : Bool :=
  0 < st.highestVersion &&
    (doc.licenseVersion < st.highestVersion ||
      (doc.licenseVersion = st.highestVersion &&
        (doc.licenseID ≠ st.acceptedLicenseID || (st.acceptedFingerprint ≠ "" && fingerprint ≠ st.acceptedFingerprint))))

def StoreState.accept (st : StoreState) (doc : Document) (fingerprint : String) (now : Int) : StoreState :=
  let st := { st with installedIssuedAt := doc.issuedAt }
  let st := if st.highestVersion ≤ doc.licenseVersion then
      { st with
        highestVersion := doc.licenseVersion
        acceptedLicenseID := doc.licenseID
        acceptedFingerprint := fingerprint }
    else st
  st.advanceHighWater now

def install (v : Verifier) (raw : String) (now : Int) (d : Disk) : Except Error (Document × List Replacement) := do
  let env ← need .malformed (v.decodeEnvelope raw)
  let doc ← need .malformed (v.verify env)
  let st ← d.readState
  let revoked ← d.readRevoked
  let fpr := v.sha256 env.payloadB64
  refuse (revoked.contains doc.licenseID) .rollback
  refuse (st.refuses doc fpr) .rollback
  let newerVersion := decide (0 < doc.licenseVersion) && decide (st.highestVersion < doc.licenseVersion)
  refuse (!newerVersion && st.installedIssuedAt ≠ 0 && doc.issuedAt < st.installedIssuedAt) .rollback
  return (doc, writeCurrent v d raw ++ writeState d (st.accept doc fpr now))

/-- `supersededByState`. -/
def StoreState.supersedes (st : StoreState) (doc : Document) : Bool :=
  if 0 < st.highestVersion then
    doc.licenseVersion < st.highestVersion ||
      (doc.licenseVersion = st.highestVersion && st.acceptedLicenseID ≠ "" && doc.licenseID ≠ st.acceptedLicenseID)
  else st.installedIssuedAt ≠ 0 && doc.issuedAt < st.installedIssuedAt

def load (v : Verifier) (d : Disk) : Except Error Document := do
  let doc ← match d.current.readOrPrev v.read with
    | .error .notExist => .error .noLicense
    | r => r
  let st ← d.readState
  refuse (st.supersedes doc) .stateDamaged
  return doc

inductive State where
  | active
  | gracePeriod
  | restricted
  | expired
  | suspended
  | revoked
  deriving DecidableEq, Repr

structure Evaluation where
  state : State
  doc : Document
  graceUntil : Int
  restrictedUntil : Int
  clockRollback : Bool
  lastCloudValidation : Int
  cloudStale : Bool

/-- In microseconds. -/
def day : Int := 24 * 3600000000

def clockRollbackTolerance : Int := 2 * day

def Document.effectiveGraceDays (doc : Document) : Int :=
  if 3 ≤ doc.schemaVersion then if doc.gracePeriodDays < 0 then 0 else doc.gracePeriodDays
  else if 0 < doc.gracePeriodDays then doc.gracePeriodDays
  else doc.offlineGraceDays

/-- `Evaluate`: what a document stands for at a time. -/
def Document.evaluate (doc : Document) (now lastCloudValidation : Int) (revoked : Bool) : Evaluation :=
  let grace := doc.effectiveGraceDays * day
  let graceUntil := doc.validUntil + grace
  let restrictedUntil := if 3 ≤ doc.schemaVersion then graceUntil else doc.validUntil + 2 * grace
  let offline := doc.offlineGraceDays * day
  { state :=
      if revoked then .revoked
      else if doc.status = .suspended then .suspended
      else if doc.validFrom ≠ 0 ∧ now < doc.validFrom then .expired
      else if now ≤ doc.validUntil then .active
      else if now ≤ graceUntil then .gracePeriod
      else if now ≤ restrictedUntil then .restricted
      else .expired
    doc, graceUntil, restrictedUntil, lastCloudValidation
    clockRollback := false
    cloudStale := lastCloudValidation ≠ 0 && 0 < offline && offline < now - lastCloudValidation }

def evaluate (v : Verifier) (now : Int) (d : Disk) : Except Error (Evaluation × List Replacement) := do
  let doc ← load v d
  let st ← d.readState
  let revoked ← d.readRevoked
  let rollback := decide (clockRollbackTolerance < st.highWater - now)
  let effective := if rollback then st.highWater else now
  let ev := doc.evaluate effective st.lastCloudValidation (revoked.contains doc.licenseID)
  return ({ ev with clockRollback := rollback },
    if st.highWater < now then writeState d (st.advanceHighWater now) else [])

def resetHighWater (centralTime localNow skew : Int) (d : Disk) : Except Error (List Replacement) := do
  refuse (centralTime = 0) .malformed
  refuse (skew < localNow - centralTime || localNow - centralTime < -skew) .malformed
  let st ← d.readState
  return writeState d { st with highWater := centralTime }

def markCloudValidated (now : Int) (d : Disk) : Except Error (List Replacement) := do
  let st ← d.readState
  return writeState d ({ st with lastCloudValidation := now }.advanceHighWater now)

def addRevocation (id : String) (d : Disk) : Except Error (List Replacement) := do
  let revoked ← d.readRevoked
  return if revoked.contains id then [] else writeRevoked d (revoked ++ [id])

inductive Call where
  | install (raw : String) (now : Int)
  | load
  | evaluate (now : Int)
  | resetHighWater (centralTime localNow skew : Int)
  | markCloudValidated (now : Int)
  | addRevocation (id : String)

/-- The replacements of a call and the document it returns. -/
def Call.run (v : Verifier) (d : Disk) : Call → List Replacement × Option Document
  | .install raw now => match License.install v raw now d with
    | .ok (doc, rs) => (rs, some doc)
    | .error _ => ([], none)
  | .load => ([], (License.load v d).toOption)
  | .evaluate now => (((License.evaluate v now d).toOption).elim [] (·.2), none)
  | .resetHighWater central now skew => (((License.resetHighWater central now skew d).toOption).getD [], none)
  | .markCloudValidated now => (((License.markCloudValidated now d).toOption).getD [], none)
  | .addRevocation id => (((License.addRevocation id d).toOption).getD [], none)

/-- The clock reading of a call that succeeds. -/
def Call.reading (v : Verifier) (d : Disk) : Call → Option Int
  | .install raw now => (License.install v raw now d).toOption.map fun _ => now
  | .evaluate now => (License.evaluate v now d).toOption.map fun _ => now
  | .markCloudValidated now => (License.markCloudValidated now d).toOption.map fun _ => now
  | .load | .resetHighWater .. | .addRevocation _ => none

/-- What a call writes. -/
inductive Call.Writes (v : Verifier) (d : Disk) : Call → List Replacement → Prop
  | none {c : Call} : c.reading v d = none → Writes v d c []
  | install {raw : String} {now : Int} {env : Envelope} {doc : Document} {st : StoreState} : d.readState = .ok st →
      Writes v d (.install raw now) (writeCurrent v d raw ++ writeState d (st.accept doc (v.sha256 env.payloadB64) now))
  | ahead {now : Int} {st : StoreState} : d.readState = .ok st → ¬ st.highWater < now → Writes v d (.evaluate now) []
  | evaluate {now : Int} {st : StoreState} : d.readState = .ok st →
      Writes v d (.evaluate now) (writeState d (st.advanceHighWater now))
  | resetHighWater {central now skew : Int} {st : StoreState} : d.readState = .ok st →
      Writes v d (.resetHighWater central now skew) (writeState d { st with highWater := central })
  | markCloudValidated {now : Int} {st : StoreState} : d.readState = .ok st →
      Writes v d (.markCloudValidated now) (writeState d ({ st with lastCloudValidation := now }.advanceHighWater now))
  | addRevocation {id : String} {ids : List String} : d.readRevoked = .ok ids →
      Writes v d (.addRevocation id) (writeRevoked d (ids ++ [id]))

lemma Call.writes (v : Verifier) (d : Disk) (c : Call) : c.Writes v d (c.run v d).1 := by
  cases c with
  | install raw now =>
    simp only [Call.run]
    cases result : License.install v raw now d with
    | error => exact .none (by simp [reading, result, Except.toOption])
    | ok r =>
      simp only [License.install, ok_bind_iff] at result
      obtain ⟨env, -, doc, -, st, read, _, -, _, -, _, -, _, -, ⟨⟩⟩ := result
      exact .install read
  | load => exact .none rfl
  | evaluate now =>
    simp only [Call.run]
    cases result : License.evaluate v now d with
    | error => exact .none (by simp [reading, result, Except.toOption])
    | ok r =>
      simp only [License.evaluate, ok_bind_iff] at result
      obtain ⟨_, -, st, read, _, -, ⟨⟩⟩ := result
      change Call.Writes v d (.evaluate now) (ite _ _ _)
      split
      · exact .evaluate read
      next ahead => exact .ahead read ahead
  | resetHighWater central now skew =>
    simp only [Call.run]
    cases result : License.resetHighWater central now skew d with
    | error => exact .none rfl
    | ok rs =>
      simp only [License.resetHighWater, ok_bind_iff] at result
      obtain ⟨_, -, _, -, st, read, ⟨⟩⟩ := result
      exact .resetHighWater read
  | markCloudValidated now =>
    simp only [Call.run]
    cases result : License.markCloudValidated now d with
    | error => exact .none (by simp [reading, result, Except.toOption])
    | ok rs =>
      simp only [License.markCloudValidated, ok_bind_iff] at result
      obtain ⟨st, read, ⟨⟩⟩ := result
      exact .markCloudValidated read
  | addRevocation id =>
    simp only [Call.run]
    cases result : License.addRevocation id d with
    | error => exact .none rfl
    | ok rs =>
      simp only [License.addRevocation, ok_bind_iff] at result
      obtain ⟨ids, read, ⟨⟩⟩ := result
      change Call.Writes v d (.addRevocation id) (ite _ _ _)
      split
      · exact .none rfl
      · exact .addRevocation read

/-- The files, and what `Load` and `Install` have returned so far. -/
structure Store where
  disk : Disk
  returned : List Document

def Store.new : Store := ⟨.empty, []⟩

/-- A call that returns, or one that a crash ends after some of its replacements. -/
structure Step where
  call : Call
  crash : Option Nat

def Step.made (v : Verifier) (d : Disk) (l : Step) : List Replacement :=
  match l.crash with
  | none => (l.call.run v d).1
  | some k => (l.call.run v d).1.take k

def Store.step (v : Verifier) (s : Store) (l : Step) : Store :=
  { disk := s.disk.replaceAll (l.made v s.disk)
    returned := match l.crash with
      | none => s.returned ++ (l.call.run v s.disk).2.toList
      | some _ => s.returned }

end StayConnect.License
