import StayConnect.Transition
import StayConnect.Tx

/-!
# Which tenant and site an appliance belongs to

The signed assignment and the signed registry of the keys that may sign it are files, each replaced atomically: the registry with
a marker that one was ever adopted, the assignment with the highest version ever adopted. `TrustedRegistry` chooses the registry
to verify against, `Resolve` verifies the assignment. Signatures and JSON are behind `Crypto` and the inductive file types. Times
are Unix seconds.
-/

namespace StayConnect.Assignment
open Tx

inductive KeyState where
  | active
  | verifyOnly
  | revoked
  | unknown (text : String)
  deriving DecidableEq, Repr

def KeyState.text : KeyState → String
  | .active => "active"
  | .verifyOnly => "verify_only"
  | .revoked => "revoked"
  | .unknown text => text

def canVerify (state : KeyState) : Bool := state = .active || state = .verifyOnly

structure TrustedKey where
  keyID : String
  publicKey : String
  state : KeyState
  /-- When it was added and retired, and the note. -/
  rest : String
  deriving DecidableEq, Repr

structure Registry where
  keys : List TrustedKey

def Registry.lookup (r : Registry) (keyID : String) : Option TrustedKey := r.keys.find? (·.keyID = keyID)

structure SignedRegistry where
  registryVersion : Int
  issuedAt : Int
  notBefore : Int
  notAfter : Int
  keys : List TrustedKey
  signerKeyID : String
  signature : String
  deriving DecidableEq, Repr

def SignedRegistry.registry (sr : SignedRegistry) : Registry := ⟨sr.keys⟩

inductive DocState where
  | assigned
  | reassigned
  | unassigned
  | revoked
  | decommissioned
  | unknown (text : String)
  deriving DecidableEq, Repr

def grants (state : DocState) : Bool := state = .assigned || state = .reassigned

def clears (state : DocState) : Bool := state = .unassigned || state = .revoked || state = .decommissioned

def knownState (state : DocState) : Bool := grants state || clears state

structure Document where
  assignmentID : String
  applianceID : String
  identityKeyFpr : String
  serial : String
  tenantID : String
  siteID : String
  version : Int
  state : DocState
  issuedAt : Int
  expiresAt : Int
  signerKeyID : String
  signature : String
  /-- The names of the tenant and the site, and the type of the site. -/
  rest : String

def isExpired (d : Document) (now : Int) : Bool := d.expiresAt ≠ 0 && d.expiresAt < now

/-- Ed25519 and the encodings of keys and signed bytes. -/
structure Crypto where
  Pub : Type
  keyID : Pub → String
  publicKeyOf : String → Option Pub
  registrySigned : Pub → SignedRegistry → Bool
  documentSigned : Pub → Document → Bool

section
variable (c : Crypto)

def verifyRegistry (root : c.Pub) (sr : SignedRegistry) (now : Int) : Except String Unit := do
  refuse (sr.signerKeyID ≠ c.keyID root) "registry signed by an unknown root key"
  refuse (!c.registrySigned root sr) "registry signature invalid (modified or wrong signer)"
  refuse (sr.notBefore ≠ 0 && now < sr.notBefore) "registry not yet valid"
  refuse (sr.notAfter ≠ 0 && sr.notAfter < now) "registry expired"

/-- Whether the signature holds, and why the registry is not usable. -/
def verifyAdopted (root : c.Pub) (sr : SignedRegistry) (now : Int) : Bool × Option String :=
  if sr.signerKeyID ≠ c.keyID root then (false, some "registry signed by an unknown root key")
  else if !c.registrySigned root sr then (false, some "registry signature invalid (modified or wrong signer)")
  else if sr.notAfter ≠ 0 ∧ sr.notAfter < now then (true, some "registry expired")
  else (true, none)

def acceptFor (pub : c.Pub) (d : Document) (applianceID serial identityFpr : String) (haveVersion : Int) :
    Except String Unit := do
  refuse (!c.documentSigned pub d) "signature invalid (modified or unknown signer)"
  refuse (d.applianceID ≠ applianceID) "assignment bound to a different appliance"
  refuse (d.serial ≠ "" && serial ≠ "" && d.serial ≠ serial) "serial mismatch"
  refuse (d.identityKeyFpr ≠ "" && identityFpr ≠ "" && d.identityKeyFpr ≠ identityFpr) "identity key mismatch"
  refuse (d.version ≤ haveVersion) "assignment version is not newer than the applied one (replay/superseded)"
  refuse (!knownState d.state) "unknown assignment state"
  refuse (grants d.state && (d.tenantID = "" || d.siteID = "")) "assigned document missing tenant/site"

def acceptForRegistry (reg : Registry) (d : Document) (applianceID serial identityFpr : String) (haveVersion : Int) :
    Except String Unit := do
  refuse reg.keys.isEmpty "no assignment trust registry on this appliance"
  let k ← need "unknown assignment signer (key not in the appliance trust registry)" (reg.lookup d.signerKeyID)
  refuse (!canVerify k.state) ("assignment signed by a " ++ k.state.text ++ " key (revoked signers are never trusted)")
  let pub ← need ("trusted key unusable: trusted key " ++ k.keyID ++ ": bad public key") (c.publicKeyOf k.publicKey)
  acceptFor c pub d applianceID serial identityFpr haveVersion

structure RegistryRecord where
  current : SignedRegistry
  previous : Option SignedRegistry
  adoptedAt : Int

/-- The registry file: a record, a bare signed registry of an earlier release, or neither. -/
inductive RegistryFile where
  | record (rec : RegistryRecord)
  | bare (sr : SignedRegistry)
  | unreadable

structure Record where
  current : Document
  previous : Option Document
  version : Int
  signerKeyID : String
  state : DocState
  adoptedAt : Int
  lastRefreshSuccess : Int
  lastRefreshAttempt : Int
  staleSince : Option Int

inductive AssignmentFile where
  | record (rec : Record)
  | bare (d : Document)
  | unreadable

inductive HighestFile where
  | record (applianceID : String) (version : Int)
  | unreadable

structure Disk where
  registry : Option RegistryFile
  /-- The marker that a signed registry was adopted. -/
  adopted : Bool
  root : Option c.Pub
  /-- The plain trust file, when it can be read. -/
  trust : Option Registry
  assignment : Option AssignmentFile
  highest : Option HighestFile

variable {c}

inductive Replacement where
  | registry (rec : RegistryRecord)
  | adopted
  | assignment (rec : Record)
  | highest (applianceID : String) (version : Int)

def Disk.replace (d : Disk c) : Replacement → Disk c
  | .registry rec => { d with registry := some (.record rec) }
  | .adopted => { d with adopted := true }
  | .assignment rec => { d with assignment := some (.record rec) }
  | .highest applianceID version => { d with highest := some (.record applianceID version) }

def Disk.replaceAll (d : Disk c) (rs : List Replacement) : Disk c := rs.foldl Disk.replace d

/-- `RegistryStore.Load`. -/
def Disk.loadRegistry (d : Disk c) : Option RegistryRecord :=
  match d.registry with
  | some (.record rec) => some rec
  | some (.bare sr) => if 0 < sr.registryVersion then some ⟨sr, none, 0⟩ else none
  | _ => none

/-- `RegistryStore.Trusted`, with the registry it comes from. -/
def Disk.trusted (d : Disk c) (root : c.Pub) (now : Int) : Option SignedRegistry :=
  match d.loadRegistry with
  | none => none
  | some rec =>
    match verifyAdopted c root rec.current now with
    | (_, none) => some rec.current
    | (true, some _) => none
    | (false, some _) => rec.previous.filter fun sr => (verifyRegistry c root sr now).toOption.isSome

inductive Source where
  | signed
  | legacyPlain
  | none
  deriving DecidableEq, Repr

/-- `TrustedRegistry`, with the version of a signed registry. -/
def Disk.trustedRegistry (d : Disk c) (now : Int) : Option Registry × Source × Option Int :=
  let signed := d.root.bind fun root => d.trusted root now
  match signed with
  | some sr => (some sr.registry, .signed, some sr.registryVersion)
  | none =>
    if d.root.isSome && d.registry.isSome then (none, .none, none)
    else if d.adopted then (none, .none, none)
    else match d.trust with
      | some reg => (some reg, .legacyPlain, none)
      | none => (none, .none, none)

/-- `Check`: the answer is whether there is nothing to write. -/
def Disk.checkRegistry (d : Disk c) (root : c.Pub) (sr : SignedRegistry) (now : Int) : Except String Bool := do
  verifyRegistry c root sr now
  match d.loadRegistry with
  | none => return false
  | some rec =>
    refuse (sr.registryVersion < rec.current.registryVersion) "registry rollback rejected (lower version than current)"
    if sr.registryVersion = rec.current.registryVersion then
      refuse (sr ≠ rec.current) "registry version reuse with different content rejected"
      return true
    else
      return false

/-- `RegistryStore.Adopt`; without the root key there is no store. -/
def Disk.adoptRegistry (d : Disk c) (sr : SignedRegistry) (now : Int) : List Replacement :=
  match d.root with
  | none => []
  | some root =>
    match d.checkRegistry root sr now with
    | .ok false =>
      .registry ⟨sr, d.loadRegistry.map (·.current), now⟩ :: if d.adopted then [] else [.adopted]
    | _ => []

def Disk.highestAdopted (d : Disk c) (applianceID : String) : Int :=
  match d.highest with
  | some (.record id version) => if id = "" ∨ id ≠ applianceID then 0 else version
  | _ => 0

/-- `Store.Load`: `none` when there is no file. -/
def Disk.loadAssignment (d : Disk c) : Option (Except Unit Record) :=
  d.assignment.map fun
    | .record rec => .ok rec
    | .bare doc =>
      if doc.assignmentID = "" ∧ doc.applianceID = "" then .error ()
      else .ok ⟨doc, none, doc.version, doc.signerKeyID, doc.state, 0, 0, 0, none⟩
    | .unreadable => .error ()

def Disk.record (d : Disk c) : Option Record := d.loadAssignment.bind Except.toOption

def Disk.adopt (d : Disk c) (doc : Document) (now : Int) : List Replacement :=
  .assignment ⟨doc, d.record.map (·.current), doc.version, doc.signerKeyID, doc.state, now, now, now, none⟩ ::
    if doc.applianceID ≠ "" ∧ d.highestAdopted doc.applianceID < doc.version then
      [.highest doc.applianceID doc.version] else []

def Disk.noteRefresh (d : Disk c) (ok : Bool) (now : Int) : List Replacement :=
  match d.record with
  | none => []
  | some rec =>
    [.assignment { rec with
      lastRefreshAttempt := now
      lastRefreshSuccess := if ok then now else rec.lastRefreshSuccess
      staleSince := if isExpired rec.current now then some (rec.staleSince.getD now) else none }]

inductive Outcome where
  | absent
  | unverifiable
  | notGranting
  | granted
  deriving DecidableEq, Repr

structure Resolution where
  tenantID : String := ""
  siteID : String := ""
  state : Option DocState := none
  version : Int := 0
  outcome : Outcome
  stale : Bool := false

def Resolution.refused (r : Resolution) : Bool := r.outcome = .unverifiable || r.outcome = .notGranting

/-- `Resolve`; `fpr` is the identifier of the appliance's key, empty when it cannot be read. -/
def Disk.resolve (d : Disk c) (applianceID serial fpr : String) (now : Int) : Resolution :=
  match d.loadAssignment with
  | none => { outcome := .absent }
  | some (.error ()) => { outcome := .unverifiable }
  | some (.ok rec) =>
    let doc := rec.current
    if doc.version < d.highestAdopted doc.applianceID then { outcome := .unverifiable }
    else match (d.trustedRegistry now).1 with
      | none => { outcome := .unverifiable }
      | some reg =>
        match acceptForRegistry c reg doc applianceID serial fpr (doc.version - 1) with
        | .error _ => { outcome := .unverifiable }
        | .ok () =>
          if grants doc.state then
            { tenantID := doc.tenantID, siteID := doc.siteID, state := some doc.state, version := doc.version
              outcome := .granted, stale := isExpired doc now }
          else { state := some doc.state, version := doc.version, outcome := .notGranting, stale := isExpired doc now }

end

structure Answer where
  /-- How often the registry file was lost before. -/
  losses : Nat
  source : Source
  version : Option Int

/-- The files, what `TrustedRegistry` has answered, the newest document written by `Adopt` and the versions `Resolve` has granted
scope from. -/
structure Appliance (c : Crypto) where
  disk : Disk c
  losses : Nat := 0
  answers : List Answer := []
  newest : Option Int := none
  granted : List Int := []

def Appliance.new {c : Crypto} (root : Option c.Pub) (trust : Option Registry) : Appliance c where
  disk := { registry := none, adopted := false, root, trust, assignment := none, highest := none }

/-- A call, cut by a crash after some of its replacements, or what befalls the files. -/
inductive Act where
  | adoptRegistry (sr : SignedRegistry) (now : Int) (crash : Option Nat)
  | trustedRegistry (now : Int)
  | loseRegistry
  | loseRoot
  | trust (reg : Option Registry)
  | adopt (doc : Document) (now : Int) (crash : Option Nat)
  | noteRefresh (ok : Bool) (now : Int) (crash : Option Nat)
  | restore (file : AssignmentFile)
  | resolve (serial fpr : String) (now : Int)

def cut (rs : List Replacement) (crash : Option Nat) : List Replacement := crash.elim rs (rs.take ·)

def Replacement.isAssignment : Replacement → Bool
  | .assignment _ => true
  | _ => false

section
variable {c : Crypto}

def Act.made (d : Disk c) : Act → List Replacement
  | .adoptRegistry sr now crash => cut (d.adoptRegistry sr now) crash
  | .adopt doc now crash => cut (d.adopt doc now) crash
  | .noteRefresh ok now crash => cut (d.noteRefresh ok now) crash
  | _ => []

def Appliance.step (id : String) (s : Appliance c) (a : Act) : Appliance c :=
  match a with
  | .adoptRegistry .. | .noteRefresh .. => { s with disk := s.disk.replaceAll (a.made s.disk) }
  | .adopt doc _ _ =>
    { s with
      disk := s.disk.replaceAll (a.made s.disk)
      newest := if (a.made s.disk).any (·.isAssignment) then some doc.version else s.newest }
  | .trustedRegistry now =>
    let (_, source, version) := s.disk.trustedRegistry now
    { s with answers := s.answers ++ [⟨s.losses, source, version⟩] }
  | .loseRegistry => { s with disk.registry := none, losses := s.losses + 1 }
  | .loseRoot => { s with disk.root := none }
  | .trust reg => { s with disk.trust := reg }
  | .restore file => { s with disk.assignment := some file }
  | .resolve serial fpr now =>
    let r := s.disk.resolve id serial fpr now
    if r.outcome = .granted then { s with granted := s.granted ++ [r.version] } else s

end

end StayConnect.Assignment
