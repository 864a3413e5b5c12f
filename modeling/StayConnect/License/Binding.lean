import StayConnect.License.Store

/-!
# The appliance a licence is installed on

A licence names the appliance it is for by its identity key, its id, its serial number, its hardware, a list of ids and the MAC
address of its WAN port, each of which may be blank. An installation compares what it names with what the appliance knows of
itself, and its customer and site with the signed assignment. Case folding and trimming of texts are behind `Folding`.
-/

namespace StayConnect.License
open Tx

structure LocalIdentity where
  applianceID : String
  identityKeyFingerprint : String
  serial : String
  hardwareFingerprint : String
  wanMAC : String

/-- What the comparisons use of `strings`. -/
structure Folding where
  equalFold : String → String → Bool
  trimSpace : String → String
  toLower : String → String
  trimSpace_empty : trimSpace "" = ""

inductive BindingResult where
  | ok
  | wrongDevice
  | wanMismatch
  deriving DecidableEq, Repr

def Folding.normMAC (f : Folding) (s : String) : String :=
  .ofList ((f.toLower (f.trimSpace s)).toList.map fun c => if c = '-' then ':' else c)

def Document.isUnbound (doc : Document) : Bool :=
  doc.identityKeyFingerprint = "" && doc.applianceID = "" && doc.applianceSerial = "" && doc.hardwareFingerprint = ""

/-- The evaluation-time check: a field that is blank on either side is not compared. -/
def Document.checkBinding (f : Folding) (doc : Document) (l : LocalIdentity) : BindingResult × String :=
  if doc.isUnbound then (.ok, "")
  else if doc.identityKeyFingerprint ≠ "" && l.identityKeyFingerprint ≠ "" &&
      !f.equalFold doc.identityKeyFingerprint l.identityKeyFingerprint then
    (.wrongDevice, "identity key fingerprint mismatch")
  else if doc.applianceID ≠ "" && l.applianceID ≠ "" && doc.applianceID ≠ l.applianceID then
    (.wrongDevice, "appliance id mismatch")
  else if doc.applianceSerial ≠ "" && l.serial ≠ "" && !f.equalFold doc.applianceSerial l.serial then
    (.wrongDevice, "serial mismatch")
  else if doc.hardwareFingerprint ≠ "" && l.hardwareFingerprint ≠ "" &&
      !f.equalFold doc.hardwareFingerprint l.hardwareFingerprint then
    (.wrongDevice, "hardware fingerprint mismatch")
  else if doc.wanMAC ≠ "" && l.wanMAC ≠ "" && f.normMAC doc.wanMAC ≠ f.normMAC l.wanMAC then
    (.wanMismatch, "WAN MAC mismatch")
  else (.ok, "")

/-- A field the licence names that the appliance does not know of itself. -/
def Folding.need (f : Folding) (docValue localValue what : String) : Option (BindingResult × String) :=
  if docValue ≠ "" && f.trimSpace localValue = "" then
    some (.wrongDevice, "this appliance's own " ++ what ++ " is not known, so the licence cannot be checked against it")
  else none

/-- The strict check at installation. -/
def Document.checkInstallBinding (f : Folding) (doc : Document) (l : LocalIdentity) : BindingResult × String :=
  if doc.isUnbound && 4 ≤ doc.schemaVersion then (.wrongDevice, "the licence is not bound to any appliance")
  else
    ((f.need doc.identityKeyFingerprint l.identityKeyFingerprint "identity key").or <|
      (f.need doc.applianceID l.applianceID "appliance id").or <|
      (f.need doc.applianceSerial l.serial "serial number").or <|
      f.need doc.hardwareFingerprint l.hardwareFingerprint "hardware fingerprint").getD
    (if l.applianceID ≠ "" && doc.applianceIDs ≠ [] && !doc.applianceIDs.contains l.applianceID then
      (.wrongDevice, "this appliance is not listed in the licence")
    else doc.checkBinding f l)

inductive InstallError where
  | noVendorKey
  | store (e : Error)
  | rejected (text : String)

/-- The manager: its store, if the vendor's key is there, what the appliance knows of itself, and the customer and site of its
granting signed assignment. -/
structure Manager where
  store : Option Verifier
  identity : LocalIdentity
  assignment : Option (String × String)

/-- The document an envelope carries, if the manager's key signed it. -/
def Manager.read (m : Manager) (raw : String) : Option Document := m.store.bind (·.read raw)

/-- The verdict on a document: the comparison with the assignment is made if the binding is in order. -/
def Manager.verdict (f : Folding) (m : Manager) (doc : Document) : BindingResult × String :=
  match doc.checkInstallBinding f m.identity with
  | (.ok, reason) => match m.assignment with
    | some (tenant, site) =>
      if doc.tenantID ≠ tenant || doc.siteID ≠ site then
        (.wrongDevice, "the licence is for a different customer or site than this appliance's signed assignment")
      else (.ok, reason)
    | none => (.ok, reason)
  | other => other

/-- The document, and the replacements: those of the store's installation and, when they are all made, those of the evaluation
that follows. -/
def Manager.install (f : Folding) (m : Manager) (raw : String) (now later : Int) (d : Disk) :
    Except InstallError (Document × List Replacement) := do
  let v ← need .noVendorKey m.store
  let pre ← need (.store .malformed) (v.read raw)
  let (res, reason) := m.verdict f pre
  refuse (res = .wrongDevice)
    (.rejected ("license rejected: " ++ reason ++ " — this license is bound to a different appliance"))
  let (doc, rs) ← (License.install v raw now d).mapError .store
  let evaluated := (License.evaluate v later (d.replaceAll rs)).toOption.elim [] (·.2)
  return (doc, rs ++ evaluated)

def Manager.writes (f : Folding) (m : Manager) (raw : String) (now later : Int) (d : Disk) : List Replacement :=
  match m.install f raw now later d with
  | .ok (_, rs) => rs
  | .error _ => []

/-- The installation returns a document, or what is on disk changes, at the latest when it is cut after `k` replacements. -/
def Manager.Takes (f : Folding) (m : Manager) (raw : String) (now later : Int) (d : Disk) (k : Nat) : Prop :=
  (m.install f raw now later d).isOk ∨ d.replaceAll ((m.writes f raw now later d).take k) ≠ d

/-- A field a licence names is known locally, and agrees. -/
def Folding.Agrees (f : Folding) (docValue localValue : String) (same : Prop) : Prop :=
  docValue ≠ "" → f.trimSpace localValue ≠ "" ∧ same

def Manager.Assigns (m : Manager) (doc : Document) : Prop :=
  ∀ tenant site, m.assignment = some (tenant, site) → doc.tenantID = tenant ∧ doc.siteID = site

/-- The licence is for this appliance. -/
structure Manager.Owns (f : Folding) (m : Manager) (doc : Document) : Prop where
  identityKey : f.Agrees doc.identityKeyFingerprint m.identity.identityKeyFingerprint
    (f.equalFold doc.identityKeyFingerprint m.identity.identityKeyFingerprint = true)
  applianceID : f.Agrees doc.applianceID m.identity.applianceID (doc.applianceID = m.identity.applianceID)
  serial : f.Agrees doc.applianceSerial m.identity.serial (f.equalFold doc.applianceSerial m.identity.serial = true)
  hardware : f.Agrees doc.hardwareFingerprint m.identity.hardwareFingerprint
    (f.equalFold doc.hardwareFingerprint m.identity.hardwareFingerprint = true)
  listed : doc.applianceIDs ≠ [] → f.trimSpace m.identity.applianceID ≠ "" ∧ m.identity.applianceID ∈ doc.applianceIDs
  named : 4 ≤ doc.schemaVersion → doc.isUnbound = false
  assigned : m.Assigns doc

/-- What the installation does not compare: a list of ids with an appliance that does not know its own, and the assignment when
the WAN port is another. -/
structure Manager.Compares (f : Folding) (m : Manager) (doc : Document) : Prop where
  listed : doc.applianceIDs ≠ [] → f.trimSpace m.identity.applianceID ≠ ""
  assigned : doc.wanMAC ≠ "" → m.identity.wanMAC ≠ "" → f.normMAC doc.wanMAC ≠ f.normMAC m.identity.wanMAC → m.Assigns doc

section
variable {f : Folding} {m : Manager} {doc : Document} {l : LocalIdentity}

lemma Folding.known_of_need {docValue localValue what} (h : f.need docValue localValue what = none)
    (named : docValue ≠ "") : f.trimSpace localValue ≠ "" := by
  intro blank
  simp [Folding.need, named, blank] at h

lemma Folding.ne_empty_of_known {s} (known : f.trimSpace s ≠ "") : s ≠ "" := by
  rintro rfl
  exact known f.trimSpace_empty

lemma Folding.need_wrongDevice {docValue localValue what r} (h : f.need docValue localValue what = some r) : r.1 = .wrongDevice := by
  unfold Folding.need at h
  split at h
  · cases h
    rfl
  · cases h

/-- What the evaluation-time check compared, when it does not find another device. -/
structure Document.Matches (f : Folding) (doc : Document) (l : LocalIdentity) : Prop where
  identityKey : doc.identityKeyFingerprint ≠ "" → l.identityKeyFingerprint ≠ "" →
    f.equalFold doc.identityKeyFingerprint l.identityKeyFingerprint = true
  applianceID : doc.applianceID ≠ "" → l.applianceID ≠ "" → doc.applianceID = l.applianceID
  serial : doc.applianceSerial ≠ "" → l.serial ≠ "" → f.equalFold doc.applianceSerial l.serial = true
  hardware : doc.hardwareFingerprint ≠ "" → l.hardwareFingerprint ≠ "" →
    f.equalFold doc.hardwareFingerprint l.hardwareFingerprint = true

lemma Document.matches_of_checkBinding (h : (doc.checkBinding f l).1 ≠ .wrongDevice) : doc.Matches f l := by
  unfold Document.checkBinding at h
  split at h
  case isTrue unbound =>
    simp only [Document.isUnbound, Bool.and_eq_true, decide_eq_true_eq] at unbound
    obtain ⟨⟨⟨key, appliance⟩, serial⟩, hardware⟩ := unbound
    exact ⟨fun n => absurd key n, fun n => absurd appliance n, fun n => absurd serial n, fun n => absurd hardware n⟩
  case isFalse =>
    split at h
    · exact absurd rfl h
    split at h
    · exact absurd rfl h
    split at h
    · exact absurd rfl h
    split at h
    · exact absurd rfl h
    rename_i key appliance serial hardware
    simp only [Bool.and_eq_true, decide_eq_true_eq, Bool.not_eq_true', not_and, Bool.not_eq_false] at key serial hardware
    simp only [Bool.and_eq_true, decide_eq_true_eq, not_and, not_not] at appliance
    exact ⟨fun n k => key ⟨n, k⟩, fun n k => appliance ⟨n, k⟩, fun n k => serial ⟨n, k⟩, fun n k => hardware ⟨n, k⟩⟩

/-- What the strict check established, when it does not find another device. -/
structure Document.Known (f : Folding) (doc : Document) (l : LocalIdentity) : Prop where
  named : 4 ≤ doc.schemaVersion → doc.isUnbound = false
  identityKey : doc.identityKeyFingerprint ≠ "" → f.trimSpace l.identityKeyFingerprint ≠ ""
  applianceID : doc.applianceID ≠ "" → f.trimSpace l.applianceID ≠ ""
  serial : doc.applianceSerial ≠ "" → f.trimSpace l.serial ≠ ""
  hardware : doc.hardwareFingerprint ≠ "" → f.trimSpace l.hardwareFingerprint ≠ ""
  listed : l.applianceID ≠ "" → doc.applianceIDs ≠ [] → l.applianceID ∈ doc.applianceIDs
  compared : doc.checkInstallBinding f l = doc.checkBinding f l

lemma Document.known_of_checkInstallBinding (h : (doc.checkInstallBinding f l).1 ≠ .wrongDevice) : doc.Known f l := by
  have answer : doc.checkInstallBinding f l = doc.checkInstallBinding f l := rfl
  conv_rhs at answer => unfold Document.checkInstallBinding
  split at answer
  case isTrue => exact absurd (by rw [answer]) h
  case isFalse bound =>
    cases needs : (f.need doc.identityKeyFingerprint l.identityKeyFingerprint "identity key").or
        ((f.need doc.applianceID l.applianceID "appliance id").or ((f.need doc.applianceSerial l.serial "serial number").or
          (f.need doc.hardwareFingerprint l.hardwareFingerprint "hardware fingerprint"))) with
    | some r =>
      rw [needs, Option.getD_some] at answer
      refine absurd ?_ h
      rw [answer]
      simp only [Option.or_eq_some_iff] at needs
      obtain found | ⟨-, found | ⟨-, found | ⟨-, found⟩⟩⟩ := needs
      all_goals exact Folding.need_wrongDevice found
    | none =>
      rw [needs, Option.getD_none] at answer
      simp only [Option.or_eq_none_iff] at needs
      obtain ⟨key, appliance, serial, hardware⟩ := needs
      split at answer
      case isTrue => exact absurd (by rw [answer]) h
      case isFalse listed =>
        simp only [Bool.and_eq_true, decide_eq_true_eq, not_and] at bound
        simp only [Bool.and_eq_true, decide_eq_true_eq, not_and, Bool.not_eq_true', Bool.not_eq_false,
          List.contains_iff_mem] at listed
        exact
          { named := fun v4 => by
              cases unbound : doc.isUnbound with
              | false => rfl
              | true => exact absurd v4 (bound unbound)
            identityKey := Folding.known_of_need key
            applianceID := Folding.known_of_need appliance
            serial := Folding.known_of_need serial
            hardware := Folding.known_of_need hardware
            listed := fun known ids => listed ⟨known, ids⟩
            compared := answer }

lemma Document.checkBinding_wan (h : (doc.checkBinding f l).1 = .wanMismatch) :
    doc.wanMAC ≠ "" ∧ l.wanMAC ≠ "" ∧ f.normMAC doc.wanMAC ≠ f.normMAC l.wanMAC := by
  unfold Document.checkBinding at h
  repeat' split at h
  all_goals try cases h
  rename_i differs
  simpa [and_assoc] using differs

/-- A document that is not refused: the binding was compared, and the assignment unless the WAN port is another. -/
lemma Manager.verdict_accepts (h : (m.verdict f doc).1 ≠ .wrongDevice) :
    (doc.checkInstallBinding f m.identity).1 ≠ .wrongDevice ∧
      ((doc.checkInstallBinding f m.identity).1 = .wanMismatch ∨ m.Assigns doc) := by
  unfold Manager.verdict at h
  split at h
  case h_1 reason answer =>
    rw [answer]
    refine ⟨by simp, .inr ?_⟩
    intro tenant site held
    simp only [held] at h
    split at h
    · exact absurd rfl h
    next same => simpa using same
  case h_2 other answer =>
    refine ⟨h, .inl ?_⟩
    cases result : (doc.checkInstallBinding f m.identity).1 with
    | ok => exact (answer _ (Prod.ext result rfl)).elim
    | wrongDevice => exact absurd result h
    | wanMismatch => rfl

/-- A licence that is not refused is for this appliance exactly if what was not compared agrees. -/
lemma Manager.owns_iff (accepted : (m.verdict f doc).1 ≠ .wrongDevice) : m.Owns f doc ↔ m.Compares f doc := by
  obtain ⟨fits, assigned⟩ := Manager.verdict_accepts accepted
  have known := Document.known_of_checkInstallBinding fits
  have agreed : doc.Matches f m.identity := Document.matches_of_checkBinding (known.compared ▸ fits)
  constructor
  · intro owned
    exact ⟨fun ids => (owned.listed ids).1, fun _ _ _ => owned.assigned⟩
  · intro compared
    refine
      { identityKey := fun named => ⟨known.identityKey named, ?_⟩
        applianceID := fun named => ⟨known.applianceID named, ?_⟩
        serial := fun named => ⟨known.serial named, ?_⟩
        hardware := fun named => ⟨known.hardware named, ?_⟩
        listed := fun ids => ⟨compared.listed ids, ?_⟩
        named := known.named
        assigned := ?_ }
    · exact agreed.identityKey named (Folding.ne_empty_of_known (known.identityKey named))
    · exact agreed.applianceID named (Folding.ne_empty_of_known (known.applianceID named))
    · exact agreed.serial named (Folding.ne_empty_of_known (known.serial named))
    · exact agreed.hardware named (Folding.ne_empty_of_known (known.hardware named))
    · exact known.listed (Folding.ne_empty_of_known (compared.listed ids)) ids
    · rcases assigned with wan | assigned
      · obtain ⟨named, has, differs⟩ := Document.checkBinding_wan (known.compared ▸ wan)
        exact compared.assigned named has differs
      · exact assigned

lemma Manager.Takes.accepted {raw now later d k} (h : m.Takes f raw now later d k)
    (read : m.read raw = some doc) : (m.verdict f doc).1 ≠ .wrongDevice := by
  cases result : m.install f raw now later d with
  | error e =>
    rcases h with returned | wrote
    · rw [result] at returned
      cases returned
    · simp [Manager.writes, result, Disk.replaceAll] at wrote
  | ok p =>
    simp only [Manager.install, ok_bind_iff, need_ok, refuse_ok] at result
    obtain ⟨v, stored, pre, verified, u, passed, -⟩ := result
    rw [Manager.read, stored, Option.bind_some, verified, Option.some_inj] at read
    subst read
    simpa using passed

end

/-- For every signed document, identity and assignment: an installation that returns or writes anything, cut or not, took a
licence for this appliance exactly if the appliance knows its id when the licence lists ids, and the customer and site agree
when the WAN port does not. -/
theorem installed_is_owned_iff (f : Folding) (m : Manager) (raw : String) (doc : Document) (now later : Int) (d : Disk) (k : Nat)
    (read : m.read raw = some doc) :
    (m.Takes f raw now later d k → m.Owns f doc) ↔ (m.Takes f raw now later d k → m.Compares f doc) :=
  forall_congr' fun takes => Manager.owns_iff (takes.accepted read)

/-- Texts compared as they are. -/
def exactly : Folding where
  equalFold s t := s = t
  trimSpace s := s
  toLower s := s
  trimSpace_empty := rfl

/-- A licence of the customer `T` at the site `S` for the appliance `A`, and one of another customer for it. -/
def twoCustomers : Verifier where
  decodeEnvelope raw := some ⟨raw, "", ""⟩
  signed _ := true
  document payload := match payload with
    | "own" => some ⟨"L", "T", "S", ["A"], "A", "", "", "", "02:00:00:00:00:01", 1, 10, .active, 0, 100, 30, 0, 4, ""⟩
    | "foreign" => some ⟨"M", "U", "V", ["A"], "A", "", "", "", "02:00:00:00:00:01", 1, 10, .active, 0, 100, 30, 0, 4, ""⟩
    | _ => none
  jsonValid _ := true
  sha256 s := s ++ "."
  sha256_injective := dotted_injective
  sha256_nonempty := dotted_nonempty

/-- The appliance `A`, assigned to `T` and `S`, with another WAN port than the licences name. -/
def replacedPort : Manager := ⟨some twoCustomers, ⟨"A", "", "", "", "02:00:00:00:00:02"⟩, some ("T", "S")⟩

theorem own_licence_installed :
    ∃ doc, replacedPort.read "own" = some doc ∧ replacedPort.Takes exactly "own" 11 12 .empty 0 ∧ replacedPort.Owns exactly doc := by
  refine ⟨_, rfl, .inl (by decide +kernel), ?_⟩
  refine (installed_is_owned_iff exactly replacedPort "own" _ 11 12 .empty 0 rfl).mpr (fun _ => ⟨?_, ?_⟩) (.inl (by decide +kernel))
  · intro _
    decide
  · rintro - - - tenant site ⟨⟩
    exact ⟨rfl, rfl⟩

/-- The licence names another WAN port, so its customer is not compared with the assignment's. -/
theorem foreign_licence_installed :
    ∃ doc, replacedPort.read "foreign" = some doc ∧ replacedPort.assignment = some ("T", "S") ∧ doc.tenantID = "U" ∧
      (∃ rs, replacedPort.install exactly "foreign" 11 12 .empty = .ok (doc, rs) ∧
        (Disk.empty.replaceAll rs).current.content = some "foreign") ∧
      ¬ replacedPort.Owns exactly doc := by
  refine ⟨_, rfl, rfl, rfl, ⟨_, rfl, by decide +kernel⟩, ?_⟩
  intro owned
  exact absurd (owned.assigned "T" "S" rfl).1 (by decide)

end StayConnect.License
