import StayConnect.Netcfg.Listing
import StayConnect.Netcfg.Minor

/-!
# Replacing the ruleset

`Ensure`, `CarryOverCommands` and `withoutRendered` of `data-plane/internal/nftconverge/converge.go`: the live table is read, the
rendered one takes its place in one transaction, and the elements of the authorization and garden sets are added to it again. The
transaction is refused when a command does not fit the type of its set.
-/

namespace StayConnect.Netcfg
open Netd

inductive AuthSet where
  | authV4
  | phase3AuthV4
  | phase3MACV4
  | gardenV4
  | gardenTCP
  | gardenUDP
deriving DecidableEq, Repr

def authSets : List AuthSet := [.authV4, .phase3AuthV4, .phase3MACV4, .gardenV4, .gardenTCP, .gardenUDP]

/-- The type of a set admits the key. -/
def AuthSet.Admits : AuthSet → Key → Prop
  | .authV4, .bound _ _ => True
  | .phase3AuthV4, .bound _ _ => True
  | .phase3MACV4, .boundMAC _ _ _ => True
  | .gardenV4, .addr _ => True
  | .gardenTCP, .pair _ _ => True
  | .gardenUDP, .pair _ _ => True
  | _, _ => False

/-- The sets rendered with `flags timeout`. -/
def AuthSet.timeouts : AuthSet → Bool
  | .authV4 | .phase3AuthV4 | .phase3MACV4 => true
  | .gardenV4 | .gardenTCP | .gardenUDP => false

/-- A span that is listed as a prefix or a range has more than one member. -/
def AddrSpan.Proper : AddrSpan → Prop
  | .one _ => True
  | .net n => Masked n ∧ n.ones < 32
  | .range lo hi => lo < hi

def PortSpan.Proper : PortSpan → Prop
  | .one _ => True
  | .range lo hi => lo < hi

def Key.Proper : Key → Prop
  | .addr s => s.Proper
  | .pair s t => s.Proper ∧ t.Proper
  | _ => True

def Lease.Proper : Lease → Prop
  | .permanent => True
  | .timed timeout left => left ≤ timeout

/-- The table in the kernel; a set it does not declare is `none`. No two elements of a set match the same. -/
structure Table where
  fingerprint : String
  sets : AuthSet → Option (List Live)
  admits : ∀ {s els}, sets s = some els → ∀ e ∈ els, s.Admits e.key
  proper : ∀ {s els}, sets s = some els → ∀ e ∈ els, e.key.Proper ∧ e.lease.Proper
  disjoint : ∀ {s els}, sets s = some els → ∀ e ∈ els, ∀ e' ∈ els, ∀ x, e.key.Matches x → e'.key.Matches x → e = e'

def content (t : Option Table) (s : AuthSet) : List Live := (t.bind (·.sets s)).getD []

def baselineResolvers : List (BitVec 32) := [0x01010101, 0x08080808, 0x08080404]

def baselineResolverPort : BitVec 16 := 53

/-- The elements the render declares itself. -/
def rendered : AuthSet → List Key
  | .gardenTCP | .gardenUDP => baselineResolvers.map fun a => .pair (.one a) (.one baselineResolverPort)
  | _ => []

/-- A baseline pair of a port-restricted garden set. -/
def isRendered (s : AuthSet) (e : Element) : Bool :=
  match s with
  | .gardenTCP | .gardenUDP => e.port = baselineResolverPort.toNat && baselineResolvers.any fun a => e.ip = some (.v4 a)
  | _ => false

/-- `withoutRendered`; the other sets are left as they are. -/
def withoutRendered (s : AuthSet) (els : List Element) : List Element := els.filter fun e => !isRendered s e

/-- The key of an `add element`. -/
inductive AddKey where
  | addr (ip : Ip)
  | pair (ip : Ip) (port : Nat)
  | bound (iface : String) (ip : Ip)
  | boundMAC (iface : String) (ip : Ip) (mac : BitVec 48)
deriving DecidableEq, Repr

def Element.addKey (e : Element) (ip : Ip) : AddKey :=
  if e.iface ≠ "" then
    match e.mac with
    | some mac => .boundMAC e.iface ip mac
    | none => .bound e.iface ip
  else if 0 < e.port then .pair ip e.port
  else .addr ip

/-- `CarryOverCommands` for one element: what is added, and with how many seconds. -/
def carryOver (e : Element) : Option (AddKey × Option Nat) :=
  match e.ip with
  | none => none
  | some ip =>
    if ip = .v4 0 then none
    else if 0 < e.expires then some (e.addKey ip, some e.expires.toNat)
    else if 0 < e.timeout then none
    else some (e.addKey ip, none)

/-- An element of the new table and the milliseconds it has, `none` for good. -/
structure Held where
  key : Key
  left : Option Nat

/-- It ends no later than a lease of the old table. -/
def Held.NoLonger (h : Held) : Lease → Prop
  | .permanent => True
  | .timed _ left => ∃ ms, h.left = some ms ∧ ms ≤ left

/-- The key as nft reads it for the type of the set. -/
def AuthSet.key (s : AuthSet) (k : AddKey) : Option Key :=
  match s, k with
  | .authV4, .bound i (.v4 a) => some (.bound i a)
  | .phase3AuthV4, .bound i (.v4 a) => some (.bound i a)
  | .phase3MACV4, .boundMAC i (.v4 a) m => some (.boundMAC i a m)
  | .gardenV4, .addr (.v4 a) => some (.addr (.one a))
  | .gardenTCP, .pair (.v4 a) p => some (.pair (.one a) (.one (BitVec.ofNat 16 p)))
  | .gardenUDP, .pair (.v4 a) p => some (.pair (.one a) (.one (BitVec.ofNat 16 p)))
  | _, _ => none

/-- One `add element`; refused where the key or the timeout does not fit the set. -/
def AuthSet.add (s : AuthSet) (c : AddKey × Option Nat) : Option Held :=
  (s.key c.1).bind fun key =>
    match c.2 with
    | none => some ⟨key, none⟩
    | some secs => if s.timeouts then some ⟨key, some (1000 * secs)⟩ else none

section
variable (T : Texts)

def commands (els : List Live) (s : AuthSet) : List (AddKey × Option Nat) :=
  (withoutRendered s (parseJSON T (listSet T els))).filterMap carryOver

/-- The table after the transaction, when nft takes it. -/
def load (old : AuthSet → List Live) : Option (AuthSet → List Held) :=
  if authSets.all fun s => (commands T (old s) s).all fun c => (s.add c).isSome then
    some fun s => ((rendered s).map fun k => ⟨k, none⟩) ++ (commands T (old s) s).filterMap s.add
  else none

/-- How the commands of one reconciliation went. -/
structure Answers where
  listed : Bool
  read : AuthSet → Bool
  written : Bool
  ran : Bool
  verified : Bool

inductive Outcome where
  | untrusted
  | unchanged
  | failed
  | replaced (new : AuthSet → List Held) (verified : Bool)

def ensure (desired : String) (t : Option Table) (A : Answers) : Outcome :=
  if !A.listed then .untrusted
  else if t.any (·.fingerprint = desired) then .unchanged
  else if authSets.any fun s => (t.bind (·.sets s)).isSome && !A.read s then .untrusted
  else if !A.written || !A.ran then .failed
  else
    match load T (content t) with
    | none => .failed
    | some new => .replaced new A.verified

end

/-- Live authorization before and after a replacement. -/
structure Kept (old : AuthSet → List Live) (new : AuthSet → List Held) : Prop where
  matched : ∀ s, ∀ e ∈ old s, e.lease.Lasts 1000 → ∀ x, e.key.Matches x → ∃ h ∈ new s, h.key.Matches x
  shorter : ∀ s, ∀ e ∈ old s, e.lease.Lasts 1 → ∀ x, e.key.Matches x → ∀ h ∈ new s, h.key.Matches x → h.NoLonger e.lease
  only : ∀ s, ∀ h ∈ new s, ∀ x, h.key.Matches x →
    (∃ e ∈ old s, e.lease.Lasts 1 ∧ e.key.Matches x) ∨ ∃ k ∈ rendered s, k.Matches x

/-- One address other than 0.0.0.0, and one port. -/
def Key.Single : Key → Prop
  | .addr (.one a) => a ≠ 0
  | .pair (.one a) (.one _) => a ≠ 0
  | .bound _ a => a ≠ 0
  | .boundMAC _ a _ => a ≠ 0
  | _ => False

/-- An element that the replacement keeps as it is. -/
structure Carriable (s : AuthSet) (e : Live) : Prop where
  single : e.lease.Lasts 1000 → e.key.Single
  whole : ∀ timeout left, e.lease = .timed timeout left → e.key.Single → e.key ∉ rendered s → 1000 ≤ timeout
  runtime : ∀ timeout left, e.lease = .timed timeout left → 0 < left → ∀ k ∈ rendered s, ∀ x, k.Matches x → ¬ e.key.Matches x

section
variable {T : Texts} {s : AuthSet} {e : Live} {c : AddKey × Option Nat} {h : Held} {t : Option Table}

theorem content_admits (he : e ∈ content t s) : s.Admits e.key := by
  unfold content at he
  cases t with
  | none => cases he
  | some t =>
    cases hs : t.sets s with
    | none => simp [hs] at he
    | some els => exact t.admits hs e (by simpa [hs] using he)

theorem content_proper (he : e ∈ content t s) : e.key.Proper ∧ e.lease.Proper := by
  unfold content at he
  cases t with
  | none => cases he
  | some t =>
    cases hs : t.sets s with
    | none => simp [hs] at he
    | some els => exact t.proper hs e (by simpa [hs] using he)

theorem content_disjoint {e'} (he : e ∈ content t s) (he' : e' ∈ content t s) {x} (hx : e.key.Matches x)
    (hx' : e'.key.Matches x) : e = e' := by
  unfold content at he he'
  cases t with
  | none => cases he
  | some t =>
    cases hs : t.sets s with
    | none => simp [hs] at he
    | some els => exact t.disjoint hs e (by simpa [hs] using he) e' (by simpa [hs] using he') x hx hx'

def command (T : Texts) (s : AuthSet) (e : Live) : Option (AddKey × Option Nat) :=
  ((parseElem T (e.json T)).filter fun el => !isRendered s el).bind carryOver

theorem mem_commands {els} : c ∈ commands T els s ↔ ∃ e ∈ els, command T s e = some c := by
  rw [commands, parseJSON_listSet, withoutRendered]
  simp only [List.mem_filterMap, List.mem_filter, command, Option.bind_eq_some_iff, Option.filter_eq_some_iff]
  constructor
  · rintro ⟨el, ⟨⟨e, he, hp⟩, hr⟩, hc⟩
    exact ⟨e, he, el, ⟨hp, hr⟩, hc⟩
  · rintro ⟨e, he, el, ⟨hp, hr⟩, hc⟩
    exact ⟨el, ⟨⟨e, he, hp⟩, hr⟩, hc⟩

/-- What the lease of an element becomes. -/
inductive LeaseCase : Lease → Option Nat → Prop where
  | permanent : LeaseCase .permanent none
  | timed {timeout left : Nat} (second : 1000 ≤ left) : LeaseCase (.timed timeout left) (some (left / 1000))
  /-- A timeout under a second is listed as zero, as a permanent element is. -/
  | lost {timeout left : Nat} (brief : timeout < 1000) (gone : left < 1000) : LeaseCase (.timed timeout left) none

theorem carryOver_cases (el : Element) {ip} (hip : el.ip = some ip) (ht : el.timeout = e.lease.timeoutSeconds)
    (hx : el.expires = e.lease.expiresSeconds) (hc : carryOver el = some c) :
    ip ≠ .v4 0 ∧ c.1 = el.addKey ip ∧ LeaseCase e.lease c.2 := by
  simp only [carryOver, hip] at hc
  split at hc
  · cases hc
  next hz =>
  refine ⟨hz, ?_⟩
  obtain ⟨key, lease, noted⟩ := e
  cases lease with
  | permanent =>
    rw [ht, hx] at hc
    cases hc
    exact ⟨rfl, .permanent⟩
  | timed timeout left =>
    simp only [Lease.timeoutSeconds, Lease.expiresSeconds] at ht hx
    rw [ht, hx] at hc
    split at hc
    · next pos =>
      cases hc
      refine ⟨rfl, ?_⟩
      rw [Int.toNat_natCast]
      exact .timed (by omega)
    · next done =>
      split at hc
      · cases hc
      · next brief =>
        cases hc
        exact ⟨rfl, .lost (by omega) (by omega)⟩

theorem carryOver_of_lease (el : Element) {ip} (hip : el.ip = some ip) (hz : ip ≠ .v4 0)
    (ht : el.timeout = e.lease.timeoutSeconds) (hx : el.expires = e.lease.expiresSeconds)
    (lease : ∃ o, LeaseCase e.lease o) : ∃ c, carryOver el = some c := by
  obtain ⟨key, lease', noted⟩ := e
  obtain ⟨o, lease⟩ := lease
  simp only [carryOver, hip, if_neg hz, ht, hx]
  cases lease with
  | permanent => exact ⟨_, rfl⟩
  | timed second =>
    rw [if_pos (by simp only [Lease.expiresSeconds]; omega)]
    exact ⟨_, rfl⟩
  | lost brief gone =>
    rw [if_neg (by simp only [Lease.expiresSeconds]; omega), if_neg (by simp only [Lease.timeoutSeconds]; omega)]
    exact ⟨_, rfl⟩

lemma key_of_iface {i : String} {a : BitVec 32} {e : Element} {key : Key} (mac : Option (BitVec 48))
    (hk : s.key (e.addKey (.v4 a)) = some key) (admits : s.Admits (mac.elim (.bound i a) (.boundMAC i a)))
    (part : (e.iface = i ∧ e.mac = mac) ∨ e.iface = "") : key = mac.elim (.bound i a) (.boundMAC i a) := by
  unfold Element.addKey at hk
  by_cases lost : e.iface = ""
  · exfalso
    simp only [lost, ne_eq, not_true_eq_false, if_false] at hk
    split at hk <;> cases mac <;> cases s <;> simp_all [AuthSet.Admits, AuthSet.key]
  · obtain ⟨rfl, rfl⟩ := part.resolve_right lost
    cases hm : e.mac <;> cases s <;> simp_all [AuthSet.Admits, AuthSet.key]

theorem key_of_addKey (T : Texts) {k key : Key} {ip : Ip} (admits : s.Admits k) (hip : (parseValue T (k.json T)).ip = some ip)
    (hz : ip ≠ .v4 0) (hk : s.key ((parseValue T (k.json T)).addKey ip) = some key) : key = k ∧ k.Single := by
  cases k with
  | addr span =>
    cases span with
    | one a =>
      simp only [Key.json, AddrSpan.json, parseValue, T.parseIP_ipText, Option.some.injEq] at hip
      subst hip
      cases s <;> simp [AuthSet.Admits] at admits
      simp [Key.json, AddrSpan.json, parseValue, Element.empty, Element.addKey, AuthSet.key] at hk
      exact ⟨hk.symm, fun h0 => hz (by rw [h0])⟩
    | net n | range lo hi => simp [Key.json, AddrSpan.json, parseValue, List.lookup_cons, Element.empty] at hip
  | pair span ports =>
    have draft : parseValue T (Key.json T (.pair span ports)) =
        concatPart T (concatPart T .empty (span.json T)) ports.json := by
      simp [Key.json, parseValue, List.lookup_cons]
    rw [draft] at hip hk
    cases span with
    | one a =>
      rw [AddrSpan.json, concatPart_ipText] at hip hk
      cases ports with
      | one p =>
        rw [PortSpan.json, concatPart_port _ _ rfl] at hip hk
        simp only [Option.some.injEq] at hip
        subst hip
        have single : Key.Single (.pair (.one a) (.one p)) := fun h0 => hz (by rw [h0])
        refine ⟨?_, single⟩
        simp only [Element.addKey, Element.empty, ne_eq, not_true_eq_false, if_false] at hk
        split at hk <;> cases s <;> simp_all [AuthSet.Admits, AuthSet.key]
      | range lo hi =>
        simp only [PortSpan.json, concatPart, Element.empty, Element.addKey, ne_eq, not_true_eq_false, if_false] at hk
        cases s <;> simp [AuthSet.Admits, AuthSet.key] at admits hk
    | net n | range l h =>
      exfalso
      cases ports with
      | one p => rw [AddrSpan.json, PortSpan.json, concatPart_port _ _ rfl] at hip; cases hip
      | range lo hi => cases hip
  | bound i a =>
    have draft : parseValue T (Key.json T (.bound i a)) = { concatPart T .empty (.str i) with ip := some (.v4 a) } := by
      simp [Key.json, parseValue, List.lookup_cons, concatPart_ipText]
    rw [draft] at hip hk
    simp only [Option.some.injEq] at hip
    subst hip
    exact ⟨key_of_iface none hk admits ((concatPart_iface i).imp_left fun named => by rw [named]; exact ⟨rfl, rfl⟩), fun h0 => hz (by rw [h0])⟩
  | boundMAC i a m =>
    have draft : parseValue T (Key.json T (.boundMAC i a m)) =
        { concatPart T .empty (.str i) with ip := some (.v4 a), mac := some m } := by
      simp [Key.json, parseValue, List.lookup_cons, concatPart_ipText, concatPart_macText]
    rw [draft] at hip hk
    simp only [Option.some.injEq] at hip
    subst hip
    exact ⟨key_of_iface (some m) hk admits ((concatPart_iface i).imp_left fun named => by rw [named]; exact ⟨rfl, rfl⟩), fun h0 => hz (by rw [h0])⟩

theorem Key.Single.ip {k : Key} (single : k.Single) : ∃ a, (parseValue T (k.json T)).ip = some (.v4 a) ∧ a ≠ 0 := by
  cases k with
  | addr span =>
    cases span with
    | one a => exact ⟨a, by simp [Key.json, AddrSpan.json, parseValue, T.parseIP_ipText], single⟩
    | net n | range lo hi => cases single
  | pair span ports =>
    cases span with
    | one a =>
      cases ports with
      | one p =>
        refine ⟨a, ?_, single⟩
        simp [Key.json, AddrSpan.json, PortSpan.json, parseValue, List.lookup_cons, concatPart_ipText, concatPart_port, Element.empty]
      | range lo hi => cases single
    | net n | range lo hi => cases single
  | bound i a => exact ⟨a, by simp [Key.json, parseValue, List.lookup_cons, concatPart_ipText], single⟩
  | boundMAC i a m => exact ⟨a, by simp [Key.json, parseValue, List.lookup_cons, concatPart_ipText, concatPart_macText], single⟩

theorem isRendered_iff {k} (admits : s.Admits k) (single : k.Single) (timeout expires : Int) :
    isRendered s { parseValue T (k.json T) with timeout := timeout, expires := expires } ↔ k ∈ rendered s := by
  have pairs {a : BitVec 32} {p : BitVec 16} : (p.toNat = baselineResolverPort.toNat ∧ ∃ b ∈ baselineResolvers, a = b) ↔
      ∃ b ∈ baselineResolvers, Key.pair (.one b) (.one baselineResolverPort) = Key.pair (.one a) (.one p) := by
    constructor
    · rintro ⟨hp, b, hb, rfl⟩
      exact ⟨a, hb, by rw [BitVec.eq_of_toNat_eq hp]⟩
    · rintro ⟨b, hb, heq⟩
      cases heq
      exact ⟨rfl, _, hb, rfl⟩
  cases k with
  | addr span =>
    cases s with
    | gardenV4 => simp [isRendered, rendered]
    | authV4 | phase3AuthV4 | phase3MACV4 | gardenTCP | gardenUDP => cases admits
  | bound i a =>
    cases s with
    | authV4 | phase3AuthV4 => simp [isRendered, rendered]
    | phase3MACV4 | gardenV4 | gardenTCP | gardenUDP => cases admits
  | boundMAC i a m =>
    cases s with
    | phase3MACV4 => simp [isRendered, rendered]
    | authV4 | phase3AuthV4 | gardenV4 | gardenTCP | gardenUDP => cases admits
  | pair span ports =>
    cases span with
    | net n | range lo hi => cases single
    | one a =>
      cases ports with
      | range lo hi => cases single
      | one p =>
        have draft : parseValue T (Key.json T (.pair (.one a) (.one p))) =
            { Element.empty with ip := some (.v4 a), port := p.toNat } := by
          simp [Key.json, AddrSpan.json, PortSpan.json, parseValue, List.lookup_cons, concatPart_ipText, concatPart_port, Element.empty]
        rw [draft]
        cases s with
        | gardenTCP | gardenUDP => simpa [isRendered, rendered] using pairs
        | authV4 | phase3AuthV4 | phase3MACV4 | gardenV4 => cases admits

theorem command_added (admits : s.Admits e.key) (hc : command T s e = some c) (ha : s.add c = some h) :
    e.key.Single ∧ h.key = e.key ∧ e.key ∉ rendered s ∧ ∃ o, LeaseCase e.lease o ∧ h.left = o.map (1000 * ·) := by
  obtain ⟨el, hel, hc⟩ := Option.bind_eq_some_iff.mp hc
  obtain ⟨hp, hr⟩ := Option.filter_eq_some_iff.mp hel
  rw [parseElem_json] at hp
  split at hp
  · next addressed =>
    obtain ⟨ip, hip⟩ := Option.isSome_iff_exists.mp addressed
    cases hp
    obtain ⟨hz, hk, lease⟩ := carryOver_cases (e := e)
      { parseValue T (e.key.json T) with timeout := e.lease.timeoutSeconds, expires := e.lease.expiresSeconds } hip rfl rfl hc
    obtain ⟨key, hkey, ha⟩ := Option.bind_eq_some_iff.mp ha
    rw [hk] at hkey
    obtain ⟨rfl, single⟩ := key_of_addKey T admits hip hz hkey
    have fresh : e.key ∉ rendered s := by
      rw [← isRendered_iff (T := T) admits single e.lease.timeoutSeconds e.lease.expiresSeconds]
      simpa using hr
    refine ⟨single, ?_, fresh, c.2, lease, ?_⟩
    all_goals
      cases hs : c.2 with
      | none =>
        rw [hs] at ha
        cases ha
        rfl
      | some secs =>
        simp only [hs] at ha
        split at ha
        · cases ha
          rfl
        · cases ha
  · cases hp

theorem exists_command (admits : s.Admits e.key) (single : e.key.Single) (fresh : e.key ∉ rendered s)
    (lease : ∃ o, LeaseCase e.lease o) : ∃ c, command T s e = some c := by
  obtain ⟨a, hip, hz⟩ := single.ip (T := T)
  have zero : Ip.v4 a ≠ .v4 0 := fun h => hz (Ip.v4.inj h)
  obtain ⟨c, hc⟩ := carryOver_of_lease (e := e)
    { parseValue T (e.key.json T) with timeout := e.lease.timeoutSeconds, expires := e.lease.expiresSeconds } hip zero rfl rfl lease
  refine ⟨c, Option.bind_eq_some_iff.mpr ⟨_, Option.filter_eq_some_iff.mpr ⟨?_, ?_⟩, hc⟩⟩
  · rw [parseElem_json, if_pos (by rw [hip]; rfl)]
  · rw [Bool.not_eq_true', ← Bool.not_eq_true, isRendered_iff admits single]
    exact fresh

theorem LeaseCase.of_lasts {lease} (h : lease.Lasts 1000) : ∃ o, LeaseCase lease o := by
  cases lease with
  | permanent => exact ⟨_, .permanent⟩
  | timed timeout left => exact ⟨_, .timed h⟩

variable {new : AuthSet → List Held}

theorem load_add {old} (hl : load T old = some new) (hc : c ∈ commands T (old s) s) : ∃ h ∈ new s, s.add c = some h := by
  unfold load at hl
  split at hl
  · next ok =>
    cases hl
    simp only [List.all_eq_true] at ok
    obtain ⟨h, hh⟩ := Option.isSome_iff_exists.mp (ok s (by cases s <;> decide) c hc)
    exact ⟨h, List.mem_append_right _ (List.mem_filterMap.mpr ⟨c, hc, hh⟩), hh⟩
  · cases hl

theorem mem_load {old} (hl : load T old = some new) :
    h ∈ new s ↔ (∃ k ∈ rendered s, h = ⟨k, none⟩) ∨ ∃ e ∈ old s, ∃ c, command T s e = some c ∧ s.add c = some h := by
  unfold load at hl
  split at hl
  · cases hl
    rw [List.mem_append, List.mem_map, List.mem_filterMap]
    apply or_congr
    · exact ⟨fun ⟨k, hk, he⟩ => ⟨k, hk, he.symm⟩, fun ⟨k, hk, he⟩ => ⟨k, hk, he.symm⟩⟩
    · constructor
      · rintro ⟨c, hc, ha⟩
        obtain ⟨e, he, hc⟩ := mem_commands.mp hc
        exact ⟨e, he, c, hc, ha⟩
      · rintro ⟨e, he, c, hc, ha⟩
        exact ⟨c, mem_commands.mpr ⟨e, he, hc⟩, ha⟩
  · cases hl

/-- A proper span is not made of baseline resolvers alone. -/
theorem AddrSpan.Proper.exists_not_baseline {span : AddrSpan} (proper : span.Proper) (h : ∀ a, span = .one a → a = 0) :
    ∃ a, span.holds a ∧ a ∉ baselineResolvers := by
  -- no two of them are neighbours
  have pick (a : BitVec 32) (ha : span.holds a) (hb : span.holds (a + 1)) : ∃ a, span.holds a ∧ a ∉ baselineResolvers := by
    by_cases hm : a ∈ baselineResolvers
    · refine ⟨a + 1, hb, ?_⟩
      simp only [baselineResolvers, List.mem_cons, List.not_mem_nil, or_false] at hm ⊢
      obtain rfl | rfl | rfl := hm <;> decide
    · exact ⟨a, ha, hm⟩
  cases span with
  | one a =>
    rw [h a rfl]
    exact ⟨0, rfl, by decide⟩
  | net n =>
    obtain ⟨masked, ones⟩ := proper
    have size : 2 ^ 1 ≤ 2 ^ (32 - n.ones) := Nat.pow_le_pow_right (by decide) (by omega)
    have fits : n.base.toNat + 2 ^ (32 - n.ones) ≤ 2 ^ 32 := by
      have lt := (lastAddr n).isLt
      rw [masked.lastAddr] at lt
      omega
    have next : (n.base + 1).toNat = n.base.toNat + 1 := by
      rw [BitVec.toNat_add, show (1 : BitVec 32).toNat = 1 from rfl, Nat.mod_eq_of_lt (by omega)]
    refine pick n.base (masked.contains_iff.mpr (by omega)) (masked.contains_iff.mpr ?_)
    rw [next]
    omega
  | range lo hi =>
    have lt : lo.toNat < hi.toNat := proper
    have bound := hi.isLt
    have next : (lo + 1).toNat = lo.toNat + 1 := by
      rw [BitVec.toNat_add, show (1 : BitVec 32).toNat = 1 from rfl, Nat.mod_eq_of_lt (by omega)]
    refine pick lo ⟨Nat.le_refl _, Nat.le_of_lt lt⟩ ⟨?_, ?_⟩
    · rw [BitVec.le_def, next]
      omega
    · rw [BitVec.le_def, next]
      omega

theorem PortSpan.Proper.nonempty {span : PortSpan} (proper : span.Proper) : ∃ p, span.holds p := by
  cases span with
  | one p => exact ⟨p, rfl⟩
  | range lo hi => exact ⟨lo, Nat.le_refl _, Nat.le_of_lt proper⟩

theorem not_mem_declaredof_matches {x} (hx : ∀ a p, x = .pair a p → a ∉ baselineResolvers ∨ p ≠ baselineResolverPort)
    {k} (hk : k ∈ rendered s) : ¬ k.Matches x := by
  have pairs : k ∈ baselineResolvers.map (fun a => Key.pair (.one a) (.one baselineResolverPort)) → ¬ k.Matches x := by
    intro hk hm
    obtain ⟨b, hb, rfl⟩ := List.mem_map.mp hk
    cases x with
    | pair a p =>
      obtain ⟨rfl, rfl⟩ : a = b ∧ p = baselineResolverPort := hm
      obtain h | h := hx a _ rfl
      · exact h hb
      · exact h rfl
    | addr a | bound i a | boundMAC i a m => cases hm
  cases s with
  | gardenTCP | gardenUDP => exact pairs hk
  | authV4 | phase3AuthV4 | phase3MACV4 | gardenV4 => cases hk

theorem Key.Proper.exists_runtime {k : Key} (proper : k.Proper) (many : ¬ k.Single) :
    ∃ x, k.Matches x ∧ ∀ r ∈ rendered s, ¬ r.Matches x := by
  cases k with
  | addr span =>
    have zero : ∀ a, span = .one a → a = 0 := by
      rintro a rfl
      by_contra hz
      exact many hz
    obtain ⟨a, ha, _⟩ := AddrSpan.Proper.exists_not_baseline proper zero
    exact ⟨.addr a, ha, fun r hr => not_mem_declaredof_matches (by rintro _ _ ⟨⟩) hr⟩
  | bound i a => exact ⟨.bound i a, ⟨rfl, rfl⟩, fun r hr => not_mem_declaredof_matches (by rintro _ _ ⟨⟩) hr⟩
  | boundMAC i a m => exact ⟨.boundMAC i a m, ⟨rfl, rfl, rfl⟩, fun r hr => not_mem_declaredof_matches (by rintro _ _ ⟨⟩) hr⟩
  | pair span ports =>
    obtain ⟨properSpan, properPorts⟩ := proper
    by_cases zero : ∀ a, span = .one a → a = 0
    · obtain ⟨a, ha, hn⟩ := properSpan.exists_not_baseline zero
      obtain ⟨p, hp⟩ := properPorts.nonempty
      refine ⟨.pair a p, ⟨ha, hp⟩, fun r hr => not_mem_declaredof_matches ?_ hr⟩
      rintro _ _ ⟨⟩
      exact .inl hn
    push Not at zero
    obtain ⟨a, rfl, ha⟩ := zero
    cases ports with
    | one p => exact absurd ha many
    | range lo hi =>
      have lt : lo.toNat < hi.toNat := properPorts
      have other : ∃ p, (PortSpan.range lo hi).holds p ∧ p ≠ baselineResolverPort := by
        by_cases hlo : lo = baselineResolverPort
        · refine ⟨hi, ⟨Nat.le_of_lt lt, Nat.le_refl _⟩, ?_⟩
          rintro rfl
          rw [hlo] at lt
          exact Nat.lt_irrefl _ lt
        · exact ⟨lo, ⟨Nat.le_refl _, Nat.le_of_lt lt⟩, hlo⟩
      obtain ⟨p, hp, hne⟩ := other
      refine ⟨.pair a p, ⟨rfl, hp⟩, fun r hr => not_mem_declaredof_matches ?_ hr⟩
      rintro _ _ ⟨⟩
      exact .inr hne

theorem Key.Single.exists_match {k : Key} (single : k.Single) : ∃ x, k.Matches x := by
  cases k with
  | addr span =>
    cases span with
    | one a => exact ⟨.addr a, rfl⟩
    | net n | range lo hi => cases single
  | bound i a => exact ⟨.bound i a, rfl, rfl⟩
  | boundMAC i a m => exact ⟨.boundMAC i a m, rfl, rfl, rfl⟩
  | pair span ports =>
    cases span with
    | one a =>
      cases ports with
      | one p => exact ⟨.pair a p, rfl, rfl⟩
      | range lo hi => cases single
    | net n | range lo hi => cases single

theorem Key.Single.eq_of_matches {k r x} (single : k.Single) (hk : k.Matches x) (hr : r.Matches x)
    (declared : r ∈ rendered s) : r = k := by
  have pairs : r ∈ baselineResolvers.map (fun a => Key.pair (.one a) (.one baselineResolverPort)) → r = k := by
    intro h
    obtain ⟨b, hb, rfl⟩ := List.mem_map.mp h
    cases k with
    | pair span ports =>
      cases span with
      | one a =>
        cases ports with
        | one p =>
          cases x with
          | pair a' p' =>
            obtain ⟨ha, hp⟩ : a' = a ∧ p' = p := hk
            obtain ⟨hb', hq⟩ : a' = b ∧ p' = baselineResolverPort := hr
            rw [← ha, ← hp, hb', hq]
          | addr a | bound i a | boundMAC i a m => cases hk
        | range lo hi => cases single
      | net n | range lo hi => cases single
    | addr span | bound i a | boundMAC i a m => cases x <;> first | exact False.elim hr | exact False.elim hk
  cases s with
  | gardenTCP | gardenUDP => exact pairs declared
  | authV4 | phase3AuthV4 | phase3MACV4 | gardenV4 => cases declared

theorem kept_of_carriable (hl : load T (content t) = some new) (ok : ∀ s, ∀ e ∈ content t s, Carriable s e) : Kept (content t) new := by
  refine ⟨?_, ?_, ?_⟩
  · intro s e he lasts x hx
    have single := (ok s e he).single lasts
    by_cases hr : e.key ∈ rendered s
    · exact ⟨⟨e.key, none⟩, (mem_load hl).mpr (.inl ⟨e.key, hr, rfl⟩), hx⟩
    obtain ⟨c, hc⟩ := exists_command (T := T) (content_admits he) single hr (LeaseCase.of_lasts lasts)
    obtain ⟨h, hh, ha⟩ := load_add hl (mem_commands.mpr ⟨e, he, hc⟩)
    obtain ⟨_, same, _⟩ := command_added (content_admits he) hc ha
    exact ⟨h, hh, same ▸ hx⟩
  · intro s e he alive x hx h hh hm
    obtain ⟨k, hk, rfl⟩ | ⟨e', he', c, hc, ha⟩ := (mem_load hl).mp hh
    · cases hlease : e.lease with
      | permanent => trivial
      | timed timeout left =>
        rw [hlease] at alive
        exact absurd hx ((ok s e he).runtime timeout left hlease alive k hk x hm)
    obtain ⟨single, same, fresh, o, lease, hleft⟩ := command_added (content_admits he') hc ha
    rw [same] at hm
    obtain rfl := content_disjoint he he' hx hm
    cases hlease : e.lease with
    | permanent => trivial
    | timed timeout left =>
      rw [hlease] at lease
      cases lease with
      | timed second => exact ⟨_, hleft, Nat.mul_div_le left 1000⟩
      | lost brief gone =>
        have := (ok s e he).whole timeout left hlease single fresh
        omega
  · intro s h hh x hm
    obtain ⟨k, hk, rfl⟩ | ⟨e, he, c, hc, ha⟩ := (mem_load hl).mp hh
    · exact .inr ⟨k, hk, hm⟩
    obtain ⟨single, same, fresh, o, lease, hleft⟩ := command_added (content_admits he) hc ha
    refine .inl ⟨e, he, ?_, same ▸ hm⟩
    cases hlease : e.lease with
    | permanent => trivial
    | timed timeout left =>
      rw [hlease] at lease
      cases lease with
      | timed second =>
        change 1 ≤ left
        omega
      | lost brief gone =>
        have := (ok s e he).whole timeout left hlease single fresh
        omega

theorem carriable_of_kept (hl : load T (content t) = some new) (kept : Kept (content t) new) :
    ∀ s, ∀ e ∈ content t s, Carriable s e := by
  intro s e he
  refine ⟨?_, ?_, ?_⟩
  · intro lasts
    by_contra many
    obtain ⟨x, hx, fresh⟩ := (content_proper he).1.exists_runtime (s := s) many
    obtain ⟨h, hh, hm⟩ := kept.matched s e he lasts x hx
    obtain ⟨k, hk, rfl⟩ | ⟨e', he', c, hc, ha⟩ := (mem_load hl).mp hh
    · exact fresh k hk hm
    obtain ⟨single, same, _⟩ := command_added (content_admits he') hc ha
    rw [same] at hm
    obtain rfl := content_disjoint he he' hx hm
    exact many single
  · intro timeout left hlease single fresh
    by_contra brief
    have proper := (content_proper he).2
    rw [hlease] at proper
    have gone : left ≤ timeout := proper
    have lost : LeaseCase e.lease none := by
      rw [hlease]
      exact .lost (by omega) (by omega)
    obtain ⟨c, hc⟩ := exists_command (T := T) (content_admits he) single fresh ⟨none, lost⟩
    obtain ⟨h, hh, ha⟩ := load_add hl (mem_commands.mpr ⟨e, he, hc⟩)
    obtain ⟨_, same, _, o, lease, hleft⟩ := command_added (content_admits he) hc ha
    obtain ⟨x, hx⟩ := single.exists_match
    -- the element is there for good after the replacement, whether or not it had run out
    have good : h.left = none := by
      rw [hlease] at lease
      cases lease with
      | timed second => omega
      | lost _ _ => exact hleft
    by_cases alive : 1 ≤ left
    · have longer := kept.shorter s e he (by rw [hlease]; exact alive) x hx h hh (same ▸ hx)
      rw [hlease] at longer
      obtain ⟨ms, hms, _⟩ := longer
      rw [good] at hms
      cases hms
    · obtain ⟨e', he', alive', hx'⟩ | ⟨k, hk, hkx⟩ := kept.only s h hh x (same ▸ hx)
      · obtain rfl := content_disjoint he he' hx hx'
        rw [hlease] at alive'
        exact alive alive'
      · exact fresh (single.eq_of_matches hx hkx hk ▸ hk)
  · intro timeout left hlease alive k hk x hkx hx
    have longer := kept.shorter s e he (by rw [hlease]; exact alive) x hx ⟨k, none⟩ ((mem_load hl).mpr (.inl ⟨k, hk, rfl⟩)) hkx
    rw [hlease] at longer
    obtain ⟨ms, hms, _⟩ := longer
    cases hms

/-- A replacement keeps live authorization exactly where every element is one it can carry. -/
theorem replacement_keeps_iff {desired : String} {A : Answers} {verified : Bool}
    (hr : ensure T desired t A = .replaced new verified) :
    Kept (content t) new ↔ ∀ s, ∀ e ∈ content t s, Carriable s e := by
  have hl : load T (content t) = some new := by
    unfold ensure at hr
    split at hr
    · cases hr
    split at hr
    · cases hr
    split at hr
    · cases hr
    split at hr
    · cases hr
    split at hr
    · cases hr
    · next hl =>
      cases hr
      exact hl
  exact ⟨carriable_of_kept hl, kept_of_carriable hl⟩

end

/-- Texts for addresses and hardware addresses told apart by their first character. -/
def labTexts : Texts where
  parseIP s :=
    match s.toList with
    | 'a' :: rest => some (.v4 (BitVec.ofNat 32 rest.length))
    | _ => none
  parseMAC s :=
    match s.toList with
    | 'm' :: rest => some (BitVec.ofNat 48 rest.length)
    | _ => none
  ipText a := String.ofList ('a' :: List.replicate a.toNat '1')
  macText m := String.ofList ('m' :: List.replicate m.toNat '1')
  parseIP_ipText a := by simp
  parseIP_macText m := by simp
  parseMAC_macText m := by simp

/-- A table with one element in one set. -/
def oneElement (s : AuthSet) (e : Live) (admits : s.Admits e.key) (proper : e.key.Proper ∧ e.lease.Proper) : Table where
  fingerprint := "old"
  sets r := if r = s then some [e] else none
  admits := by
    intro r els h e' he'
    split at h
    · next same =>
      cases h
      rw [List.mem_singleton.mp he', same]
      exact admits
    · cases h
  proper := by
    intro r els h e' he'
    split at h
    · cases h
      rw [List.mem_singleton.mp he']
      exact proper
    · cases h
  disjoint := by
    intro r els h a ha b hb x _ _
    split at h
    · cases h
      rw [List.mem_singleton.mp ha, List.mem_singleton.mp hb]
    · cases h

theorem content_oneElement {s r e e' admits proper} (h : e' ∈ content (some (oneElement s e admits proper)) r) : r = s ∧ e' = e := by
  simp only [content, oneElement, Option.bind_some] at h
  split at h
  · next same => exact ⟨same, List.mem_singleton.mp h⟩
  · cases h

def allWell : Answers := ⟨true, fun _ => true, true, true, true⟩

/-- A guest with forty and a half seconds of ninety left. -/
def signedIn : Live := ⟨.bound "br-g20" 5, .timed 90000 40500, false⟩

def signedInTable : Table := oneElement .phase3AuthV4 signedIn trivial ⟨trivial, show 40500 ≤ 90000 by decide⟩

def signedInAfter : AuthSet → List Held
  | .phase3AuthV4 => [⟨.bound "br-g20" 5, some 40000⟩]
  | s => (rendered s).map fun k => ⟨k, none⟩

theorem signedIn_replaced : ensure labTexts "new" (some signedInTable) allWell = .replaced signedInAfter true := by
  have hl : load labTexts (content (some signedInTable)) = some signedInAfter := by
    have hc : ∀ s, commands labTexts (content (some signedInTable) s) s =
        if s = .phase3AuthV4 then [(.bound "br-g20" (.v4 5), some 40)] else [] := by
      intro s
      cases s <;> decide +kernel
    unfold load
    rw [if_pos (by decide)]
    congr 1
    funext s
    cases s <;> rfl
  simp only [ensure, hl]
  rfl

theorem signedIn_kept : Kept (content (some signedInTable)) signedInAfter := by
  apply (replacement_keeps_iff signedIn_replaced).mpr
  intro s e he
  obtain ⟨rfl, rfl⟩ := content_oneElement he
  refine ⟨fun _ => show (5 : BitVec 32) ≠ 0 by decide, ?_, ?_⟩
  · rintro _ _ ⟨⟩ _ _
    decide
  · rintro _ _ ⟨⟩ _ k hk
    cases hk

/-- Two neighbouring garden addresses, which the kernel has merged. -/
def neighbours : Live := ⟨.addr (.range 8 9), .permanent, false⟩

def neighboursTable : Table := oneElement .gardenV4 neighbours trivial ⟨show (8 : BitVec 32) < 9 by decide, trivial⟩

/-- The walled garden is lost: the parser makes nothing of a range. -/
theorem merged_garden_is_lost :
    ensure labTexts "new" (some neighboursTable) allWell = .replaced (fun s => (rendered s).map fun k => ⟨k, none⟩) true ∧
      ¬ Kept (content (some neighboursTable)) fun s => (rendered s).map fun k => ⟨k, none⟩ := by
  constructor
  · have hl : load labTexts (content (some neighboursTable)) = some fun s => (rendered s).map fun k => ⟨k, none⟩ := by
      have hc : ∀ s, commands labTexts (content (some neighboursTable) s) s = [] := by
        intro s
        cases s <;> decide +kernel
      unfold load
      simp only [hc]
      rw [if_pos (by decide)]
      congr 1
      funext s
      simp
    simp only [ensure, hl]
    rfl
  · intro kept
    obtain ⟨h, hh, _⟩ := kept.matched .gardenV4 neighbours (by decide +kernel) trivial (.addr 8) ⟨by decide, by decide⟩
    cases hh

end StayConnect.Netcfg
