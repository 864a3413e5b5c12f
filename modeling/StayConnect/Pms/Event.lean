import StayConnect.Pms.Record

/-!
# Domain events and their identity

`toEvent` of `adapter_fias.go`: the typed projection of a GI/GC/GO record and its keyed fingerprint over the
complete parsed record (`SourceEvent.canonical`, `ComputeSourceFingerprint`), and `Event.Validate`. The
digest is a parameter; under a collision-free one the identity determines the record body
(`Adapter.body_of_identity`). The guest attributes A0 and A1 never refuse a record and reach neither
identity checks nor the stay's status and room, so the projection leaves them out.
-/

namespace StayConnect.Pms
open StayConnect.Framing

/-- Go's Unicode operations on a value: `namenorm.Room`, and whether `strings.TrimSpace` leaves nothing. -/
structure TextOps where
  room : Bytes → Bytes
  blank : Bytes → Bool

/-- The Protel field codes of the typed projection. -/
def fcRoom : Bytes := ['R', 'N']
@[inherit_doc fcRoom] def fcReservation : Bytes := ['G', '#']
@[inherit_doc fcRoom] def fcLastName : Bytes := ['G', 'N']
@[inherit_doc fcRoom] def fcFirstName : Bytes := ['G', 'F']
@[inherit_doc fcRoom] def fcFolio : Bytes := ['F', 'O']
@[inherit_doc fcRoom] def fcArrival : Bytes := ['G', 'A']
@[inherit_doc fcRoom] def fcDeparture : Bytes := ['G', 'D']

structure TypedDomainFields where
  reservation : Bytes
  room : Bytes
  lastName : Bytes
  firstName : Bytes
  folio : Bytes
  arrival : Bytes
  departure : Bytes

namespace ParsedRecord

/-- The values of one field code, in source order. -/
def values (pr : ParsedRecord) (code : Bytes) : List Bytes :=
  (pr.fields.filter fun f => f.code == code).map FieldPair.value

/-- The value the projection's loop leaves for a code. -/
def value (pr : ParsedRecord) (code : Bytes) : Bytes :=
  (pr.values code).getLast?.getD []

def extractTypedDomainFields (pr : ParsedRecord) : Except RecordError TypedDomainFields :=
  let count := fun code => (pr.values code).length
  if count fcRoom > 1 || count fcReservation > 1 then .error .malformed
  else if count fcRoom == 0 then .error (.identityAbsent fcRoom)
  else if count fcReservation == 0 && pr.recordType != .GO then .error (.identityAbsent fcReservation)
  else if [fcLastName, fcFirstName, fcFolio, fcArrival, fcDeparture].any fun code => count code > 1 then
    .error .malformed
  else
    .ok
      { reservation := pr.value fcReservation
        room := pr.value fcRoom
        lastName := pr.value fcLastName
        firstName := pr.value fcFirstName
        folio := pr.value fcFolio
        arrival := pr.value fcArrival
        departure := pr.value fcDeparture }

lemma fields_ne_nil {pr : ParsedRecord} {tf : TypedDomainFields} (h : pr.extractTypedDomainFields = .ok tf) : pr.fields ≠ [] := by
  intro e
  simp [extractTypedDomainFields, values, e] at h

end ParsedRecord

/-- `SourceEvent`: the complete parsed record the fingerprint derives from. -/
structure SourceEvent where
  interfaceID : Bytes
  recordType : RecordType
  normalizationVersion : Nat
  protocolProfile : Bytes
  sequence : Bytes
  pairs : List FieldPair

namespace SourceEvent

/-- The tokens of `canonical`. -/
def tokens (se : SourceEvent) : List Bytes :=
  ["source-event:v2".toList, se.protocolProfile, se.interfaceID, se.recordType.code,
    "nv".toList ++ Nat.toDigits 10 se.normalizationVersion, "seq".toList ++ se.sequence,
    "n=".toList ++ Nat.toDigits 10 se.pairs.length] ++
  se.pairs.flatMap fun p => ["c=".toList ++ p.code, "v=".toList ++ p.value]

/-- `canonical`: length-prefixed tokens, pairs in source order. -/
def canonical (se : SourceEvent) : Bytes :=
  frames '\x1f' se.tokens

lemma code_injective : Function.Injective RecordType.code := by
  intro a b h
  cases a <;> cases b <;> first | rfl | exact absurd h (by decide)

lemma pairs_injective : Function.Injective fun ps : List FieldPair =>
    ps.flatMap fun p => ["c=".toList ++ p.code, "v=".toList ++ p.value] := by
  intro ps qs h
  induction ps generalizing qs with
  | nil =>
    cases qs with
    | nil => rfl
    | cons q qs => simp at h
  | cons p ps ih =>
    cases qs with
    | nil => simp at h
    | cons q qs =>
      simp only [List.flatMap_cons, List.cons_append, List.nil_append, List.cons.injEq,
        List.append_cancel_left_eq] at h
      obtain ⟨hc, hv, rest⟩ := h
      obtain ⟨pc, pv⟩ := p
      obtain ⟨qc, qv⟩ := q
      rw [show pc = qc from hc, show pv = qv from hv, ih rest]

/-- Different source events have different canonical encodings. -/
lemma canonical_injective : Function.Injective canonical := by
  intro a b h
  have tok : a.tokens = b.tokens := frames_injective _ h
  simp only [tokens, List.cons_append, List.nil_append, List.cons.injEq,
    List.append_cancel_left_eq, true_and] at tok
  obtain ⟨profile, iface, rt, nv, seq, -, pairs⟩ := tok
  cases a
  cases b
  simp only at profile iface rt nv seq pairs
  rw [profile, iface, code_injective rt, toDigits_injective nv, seq, pairs_injective pairs]

end SourceEvent

/-- `Event`, the data of a domain event the stay engine reads; `identity` is both the fingerprint and the
external event identity, absent when the identity key is (`ComputeSourceFingerprint` fails closed). -/
structure Event (δ : Type) where
  recordType : RecordType
  identity : Option δ
  reservation : Bytes
  room : Bytes
  folio : Bytes
  lastName : Bytes
  firstName : Bytes
  arrivalRaw : Bytes
  departureRaw : Bytes
  cursor : Bytes

/-- `Event.Validate` for a domain event. -/
def Event.validate {δ : Type} (T : TextOps) (e : Event δ) : Bool :=
  e.recordType.isDomain &&
  ([(e.arrivalRaw, 32), (e.departureRaw, 32), (e.reservation, 64), (e.room, 16), (e.folio, 64),
    (e.lastName, 128), (e.firstName, 128), (e.cursor, 4096)].all fun f =>
      f.1.length ≤ f.2 && !hasControlBytes f.1) &&
  e.identity.isSome && !T.blank e.room && (e.recordType == .GO || !T.blank e.reservation)

/-- `fiasAdapter`: what `toEvent` reads of the interface and its revision. -/
structure Adapter (δ : Type) where
  interfaceID : Bytes
  profile : Bytes
  normalizationVersion : Nat
  identKey : Bytes
  identKeyVersion : Nat
  hmac : Bytes → Bytes → δ

namespace Adapter

variable {δ : Type} (A : Adapter δ)

/-- `newSourceEvent` for a parsed record. -/
def sourceEvent (pr : ParsedRecord) : SourceEvent where
  interfaceID := A.interfaceID
  recordType := pr.recordType
  normalizationVersion := A.normalizationVersion
  protocolProfile := A.profile
  sequence := []
  pairs := pr.fields

def computeSourceFingerprint (se : SourceEvent) : Option δ :=
  if A.identKey = [] || A.identKeyVersion == 0 then none
  else some (A.hmac A.identKey ("PMS_EVENT_IDENTITY".toList ++ '\x00' :: se.canonical))

def toEvent (body : Bytes) : Except RecordError (Event δ) := do
  let pr ← parseStrictRecord body
  let tf ← pr.extractTypedDomainFields
  return {
    recordType := pr.recordType
    identity := A.computeSourceFingerprint (A.sourceEvent pr)
    reservation := tf.reservation
    room := tf.room
    folio := tf.folio
    lastName := tf.lastName
    firstName := tf.firstName
    arrivalRaw := tf.arrival
    departureRaw := tf.departure
    cursor := tf.reservation ++ ':' :: tf.room }

lemma toEvent_ok {body ev} (h : A.toEvent body = .ok ev) :
    ∃ pr tf, parseStrictRecord body = .ok pr ∧ pr.extractTypedDomainFields = .ok tf ∧
      ev.identity = A.computeSourceFingerprint (A.sourceEvent pr) := by
  unfold toEvent at h
  cases hp : parseStrictRecord body with
  | error e => rw [hp] at h; cases h
  | ok pr =>
    cases ht : pr.extractTypedDomainFields with
    | error e =>
      simp only [hp, bind, Except.bind, ht] at h
      cases h
    | ok tf =>
      simp only [hp, bind, Except.bind, ht, pure, Except.pure] at h
      cases h
      exact ⟨pr, tf, rfl, ht, rfl⟩

lemma body_of_identity (inj : ∀ k, Function.Injective (A.hmac k)) {b c : Bytes} {ev ew : Event δ}
    (hb : A.toEvent b = .ok ev) (hc : A.toEvent c = .ok ew) (some : ev.identity.isSome = true)
    (h : ev.identity = ew.identity) : b = c := by
  obtain ⟨pr, tf, hp, ht, hi⟩ := A.toEvent_ok hb
  obtain ⟨pr', tf', hp', ht', hi'⟩ := A.toEvent_ok hc
  rw [hi] at some
  rw [hi, hi'] at h
  unfold computeSourceFingerprint at some h
  split at some
  · cases some
  rename_i key
  rw [if_neg key, if_neg key] at h
  have enc := inj _ (Option.some.inj h)
  simp only [List.append_cancel_left_eq, List.cons.injEq, true_and] at enc
  have src := SourceEvent.canonical_injective enc
  simp only [sourceEvent, SourceEvent.mk.injEq, true_and] at src
  obtain ⟨rt, pairs⟩ := src
  have same : pr = pr' := by
    cases pr
    cases pr'
    simp only at rt pairs
    rw [rt, pairs]
  rw [← parseStrictRecord_render hp (ParsedRecord.fields_ne_nil ht), same,
    parseStrictRecord_render hp' (ParsedRecord.fields_ne_nil ht')]

end Adapter

end StayConnect.Pms
