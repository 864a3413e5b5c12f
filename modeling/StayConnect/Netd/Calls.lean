import StayConnect.Netd.Shape

/-!
# External calls

The operations netd's passes are made of: `gate` (`phase3_gate.go`, `phase3_batch.go`), `shaper`
(`internal/shape/shape.go`, `batch.go`), the database (`enforcementRecorder`, `originRegistrar`,
`generationAllocator`), the clocks and the files. A fallible write returns whether netd saw an
error; a fallible read returns `none` on one. The gate is modelled at its interface: the MAC-bound
twin set and the conntrack flush are below it.
-/

namespace StayConnect.Netd

open Framing

/-- One external call: the number it is answered under, after the time it takes. -/
def call : NetdM Nat := modifyGet fun w =>
  (w.calls, { w with calls := w.calls + 1, clock := w.clock + w.env.lasts w.calls })

def record (e : Event) : NetdM Unit := modify fun w => { w with log := e :: w.log }

def outcomeOf (n i : Nat) : NetdM Outcome := do return (← get).env.outcome n i

/-- Carry out a write whose outcome is already known. -/
def land (o : Outcome) (f : World → World) : NetdM Bool := do
  if o.lands then modify f
  return o.err

/-- A write: it lands or not, and netd sees an error or not. -/
def perform (f : World → World) : NetdM Bool := do
  let n ← call
  land (← outcomeOf n 0) f

/-- A read: `none` when it fails. -/
def query {α : Type} (f : World → α) : NetdM (Option α) := do
  let n ← call
  if (← outcomeOf n 0).err then return none
  return some (f (← get))

def bootNow : NetdM (Option Nat) := query (·.clock)

def currentBootID : NetdM (Option Bytes) := query (·.bootID)

/-- `time.Now` as far as durations go: the monotonic clock. -/
def monoNow : NetdM Nat := do return (← get).clock

/-- What an element has left at boot time `t`: `none` once it lapsed, `some none` without a timeout. -/
def Kernel.left (k : Kernel) (t : Nat) (a : Addr) : Option (Option Nat) :=
  match k.auth.lookup a with
  | none => none
  | some none => some none
  | some (some e) => if t < e then some (some (e - t)) else none

/-- What the element of `a` has left now. -/
def World.left (w : World) (a : Addr) : Option (Option Nat) := w.kern.left w.clock a

theorem left_eq_none {w : World} {a : Addr} : w.left a = none ↔ ∀ e, w.kern.auth.lookup a = some e → ∃ t, e = some t ∧ t ≤ w.clock := by
  unfold World.left Kernel.left
  cases w.kern.auth.lookup a with
  | none => simp
  | some e => cases e <;> simp

theorem left_none_later {w w' : World} {a : Addr} (kern : w'.kern = w.kern) (clock : w.clock ≤ w'.clock)
    (h : w.left a = none) : w'.left a = none := by
  rw [left_eq_none] at h ⊢
  rw [kern]
  intro e he
  obtain ⟨t, rfl, ht⟩ := h e he
  exact ⟨t, rfl, ht.trans clock⟩

theorem left_earlier {w w' : World} {a : Addr} (kern : w'.kern = w.kern) (clock : w.clock ≤ w'.clock)
    (h : (w'.left a).isSome) : (w.left a).isSome := by
  by_contra hnone
  simp [left_none_later kern clock (by simpa using hnone)] at h

/-- `leaseSeconds`: an nft timeout is whole seconds. -/
def wholeSeconds (ttl : Nat) : Nat := ttl / 1000 * 1000

/-- One authorization of the gate: the lease, and for the record the session it is written for. -/
structure GateLease where
  key : Key
  addr : Addr
  ttl : Nat

/-- The element of a lease, written or refreshed. -/
def GateLease.write (r : GateLease) (w : World) : World :=
  { w with
    kern.auth := w.kern.auth.insert r.addr (some (w.clock + wholeSeconds r.ttl))
    log := .authorized r.key r.addr (wholeSeconds r.ttl) w.clock (w.left r.addr) :: w.log }

/-- A lease `leaseValid` refuses: no IPv4 address, or under a second. -/
def GateLease.invalid (r : GateLease) : Bool :=
  match r.addr.ip with
  | .v6 _ => true
  | .v4 _ => wholeSeconds r.ttl == 0

def eraseAuth (a : Addr) (w : World) : World :=
  { w with kern.auth := w.kern.auth.erase a, log := .revoked a :: w.log }

def authorize (r : GateLease) : NetdM Bool := do
  if r.invalid then return true
  perform r.write

def revoke (a : Addr) : NetdM Bool := perform (eraseAuth a)

def authorized (a : Addr) : NetdM (Option Bool) := query fun w => (w.left a).isSome

/-- `gate.List`: the elements present and what each reports as left, zero for no expiry. -/
def gateList : NetdM (Option (List (Addr × Nat))) := do
  let n ← call
  if (← outcomeOf n 0).err then return none
  let w ← get
  return some <| w.kern.auth.keys.filterMap fun a =>
    (w.left a).map fun l => (a, if w.env.unreported n a then 0 else l.getD 0)

/-- `gateView`: `byKey` is what each element had left, `none` as a whole when the set was unreadable. -/
structure GateView where
  byKey : Option (Table Addr Nat)
  aged : Nat := 0

def snapshotGate : NetdM GateView := do
  match ← gateList with
  | none => return { byKey := none }
  | some els => return { byKey := some (els.foldl (fun t e => t.insert e.1 e.2) ∅) }

/-- `gateView.lookup`: unknown, absent, or what is left now. -/
def GateView.lookup (v : GateView) (a : Addr) : Option (Option Nat) :=
  v.byKey.map fun t => (t.lookup a).map fun left =>
    if 0 < left && 0 < v.aged then (if left ≤ v.aged then 1 else left - v.aged) else left

/-- Drop an element from the snapshot (`delete(view.byKey, ...)`). -/
def GateView.delete (v : GateView) (a : Addr) : GateView :=
  { v with byKey := v.byKey.map fun t => t.erase a }

/-- `denyAccess`: revoke and confirm that it is gone. -/
def denyAccess (a : Addr) : NetdM Bool := do
  if ← revoke a then return true
  match ← authorized a with
  | none => return true
  | some still => return still

/-- One request of `AuthorizeBatch` under call `n`: written and verified on its own. -/
def authorizeItem (n i : Nat) (r : GateLease) : NetdM Bool := do
  let err ← (if r.invalid then pure true else do land (← outcomeOf n i) r.write)
  return err || ((← get).left r.addr).isNone

def authorizeItems (n : Nat) : Nat → List GateLease → NetdM (List Bool)
  | _, [] => return []
  | i, r :: rest => do
    let err ← authorizeItem n i r
    return err :: (← authorizeItems n (i + 1) rest)

/-- One request of `RevokeBatch` under call `n`. -/
def revokeItem (n i : Nat) (a : Addr) : NetdM Bool := do
  let err ← (match a.ip with
    | .v6 _ => pure true
    | .v4 _ => do land (← outcomeOf n i) (eraseAuth a))
  return err || ((← get).left a).isSome

def revokeItems (n : Nat) : Nat → List Addr → NetdM (List Bool)
  | _, [] => return []
  | i, a :: rest => do
    let err ← revokeItem n i a
    return err :: (← revokeItems n (i + 1) rest)

/-- `authorizeBatch`: one transaction, or one call each when batching is off. -/
def authorizeBatch (reqs : List GateLease) : NetdM (List Bool) := do
  if reqs = [] then return []
  if (← get).mem.noBatch then reqs.mapM authorize
  else authorizeItems (← call) 0 reqs

def denyBatch (reqs : List Addr) : NetdM (List Bool) := do
  if reqs = [] then return []
  if (← get).mem.noBatch then reqs.mapM denyAccess
  else revokeItems (← call) 0 reqs

def Kernel.classesOf (k : Kernel) (keep : Nat → Bool) (device : Bytes) : List (Nat × Class) :=
  k.tc.entries.filterMap fun e =>
    if e.1.device = device && keep e.1.minor then some (e.1.minor, e.2) else none

/-- `ReadClasses`: the session classes of a device. -/
def readClasses (device : Bytes) : NetdM (Option (List (Nat × Class))) :=
  query (·.kern.classesOf isGuestMinor device)

def isGroupMinor (minor : Nat) : Bool := groupMinorBase ≤ minor && minor ≤ groupMinorMax

def readGroupClasses (device : Bytes) : NetdM (Option (List (Nat × Class))) :=
  query (·.kern.classesOf isGroupMinor device)

/-- `EnsureBridgeInfra`: the qdiscs and the ingress redirect of a bridge; no class is touched. -/
def ensureBridgeInfra (_bridge : Bytes) : NetdM Bool := perform id

/-- `tc class add`: refused when the slot is taken. -/
def addClass (slot : Slot) (c : Class) : NetdM Bool := do
  if ((← get).kern.tc.lookup slot).isSome then return true
  perform fun w => { w with kern.tc := w.kern.tc.insert slot c }

/-- New rates for the class of a slot; counters and parent stay. -/
def Kernel.reRate (k : Kernel) (slot : Slot) (c : Class) : Kernel :=
  match k.tc.lookup slot with
  | none => k
  | some old =>
    { k with tc := k.tc.insert slot { old with params := true, rateKbit := c.rateKbit, ceilKbit := c.ceilKbit } }

/-- `tc class change`: refused when there is no class. -/
def changeClass (slot : Slot) (c : Class) : NetdM Bool := do
  if ((← get).kern.tc.lookup slot).isNone then return true
  perform fun w => { w with kern := w.kern.reRate slot c }

def addFilter (slot : Slot) (ip : Ip) : NetdM Bool :=
  perform fun w => { w with kern.filters := Function.update w.kern.filters slot (some ip) }

def Kernel.dropFilter (k : Kernel) (slot : Slot) : Kernel :=
  { k with filters := Function.update k.filters slot none }

def Kernel.dropClass (k : Kernel) (slot : Slot) : Kernel :=
  { k.dropFilter slot with tc := k.tc.erase slot }

def removeFilter (slot : Slot) : NetdM Bool := perform fun w => { w with kern := w.kern.dropFilter slot }

/-- `removeClassAndFilter`: its errors are swallowed. -/
def removeClass (slot : Slot) : NetdM Unit := do
  let _ ← perform fun w => { w with kern := w.kern.dropClass slot }

/-- `EnsureGroupClass`: created, or re-rated in place. -/
def ensureGroupClass (slot : Slot) (kbps : Int) : NetdM Bool := do
  let c : Class := { rateKbit := kbps, ceilKbit := kbps }
  if ← addClass slot c then changeClass slot c else return false

/-- `DeleteSession`, and `DeleteSessionClass` for a guest minor. -/
def deleteSession (bridge : Bytes) (minor : Nat) : NetdM Unit := do
  removeClass ⟨bridge, minor⟩
  removeClass ⟨ifbName bridge, minor⟩

def deleteSessionClass (bridge : Bytes) (minor : Nat) : NetdM Bool := do
  if !isGuestMinor minor then return true
  deleteSession bridge minor
  return false

/-- The two classes of a session, added one after the other. -/
def addSessionClasses (bridge : Bytes) (minor : Nat) (down up : Int) (group : Option Nat) : NetdM Bool := do
  if ← addClass ⟨bridge, minor⟩ (sessionClass down group) then return true
  addClass ⟨ifbName bridge, minor⟩ (sessionClass up group)

/-- `PrepareSessionIn`: classes without filters, from a cleared slot. -/
def prepareSessionIn (bridge : Bytes) (minor : Nat) (down up : Int) (group : Option Nat) : NetdM Bool := do
  if ← ensureBridgeInfra bridge then return true
  deleteSession bridge minor
  if ← addClass ⟨bridge, minor⟩ (sessionClass down group) then return true
  if ← addClass ⟨ifbName bridge, minor⟩ (sessionClass up group) then
    -- A failed prepare leaves no half-class.
    removeClass ⟨bridge, minor⟩
    return true
  return false

/-- `ActivateSession`: both filters, or neither. -/
def activateSession (bridge : Bytes) (minor : Nat) (ip : Ip) : NetdM Bool := do
  if ← addFilter ⟨bridge, minor⟩ ip then return true
  if ← addFilter ⟨ifbName bridge, minor⟩ ip then
    let _ ← removeFilter ⟨bridge, minor⟩
    return true
  return false

def reRateSessionIn (bridge : Bytes) (minor : Nat) (down up : Int) (group : Option Nat) : NetdM Bool := do
  if ← changeClass ⟨bridge, minor⟩ (sessionClass down group) then return true
  changeClass ⟨ifbName bridge, minor⟩ (sessionClass up group)

def hasMinor (cs : List (Nat × Class)) (minor : Nat) : Bool := (cs.lookup minor).isSome

/-- `AbortSession`: remove everything of the slot and prove it gone on both devices. -/
def abortSession (bridge : Bytes) (minor : Nat) : NetdM Bool := do
  let _ ← removeFilter ⟨bridge, minor⟩
  let _ ← removeFilter ⟨ifbName bridge, minor⟩
  deleteSession bridge minor
  match ← readClasses bridge with
  | none => return true
  | some down =>
    if hasMinor down minor then return true
    match ← readClasses (ifbName bridge) with
    | none => return true
    | some up => return hasMinor up minor

def removeClassification (bridge : Bytes) (minor : Nat) : NetdM Bool := do
  let e1 ← removeFilter ⟨bridge, minor⟩
  let e2 ← removeFilter ⟨ifbName bridge, minor⟩
  return e1 || e2

/-- The minors with a filter on a device; an unreadable device shows none. -/
def minorsWithFilter (device : Bytes) : NetdM (Nat → Bool) := do
  return ((← query fun w minor => (w.kern.filters ⟨device, minor⟩).isSome).getD fun _ => false)

/-- `SessionForwarding` and, over many sessions, `ForwardingBatch`. -/
def forwarding (bridge : Bytes) : NetdM (Nat → Bool) := do
  let down ← minorsWithFilter bridge
  let up ← minorsWithFilter (ifbName bridge)
  return fun minor => down minor && up minor

/-- Run commands of a tc batch until one is refused. -/
def untilErr {α : Type} (f : α → NetdM Bool) : List α → NetdM Bool
  | [] => return false
  | x :: xs => do if ← f x then return true else untilErr f xs

/-- The removals of one forced tc batch under call `n`: refusals of single commands are ignored. -/
def dropItems (n : Nat) : Nat → List Slot → NetdM Unit
  | _, [] => return ()
  | i, slot :: rest => do
    let _ ← land (← outcomeOf n i) fun w => { w with kern := w.kern.dropClass slot }
    dropItems n (i + 1) rest

def deleteClassesBatch (bridge : Bytes) (minors : List Nat) : NetdM Bool := do
  if minors.any (!isGuestMinor ·) then return true
  if minors = [] then return false
  let n ← call
  -- Not a refused command: the process itself did not run.
  if (← outcomeOf n 0).err then return true
  dropItems n 1 (minors.flatMap fun m => [⟨bridge, m⟩, ⟨ifbName bridge, m⟩])
  return false

/-- `Activate`, the promotion of a session under a class generation. -/
def activate (k : Key) (epoch : Nat) : NetdM Reply := do
  let n ← call
  let r := (← get).env.reply n
  if r = .ok then record (.answered k epoch)
  return r

/-- `Confirm`: whether durable state says active; `none` when it cannot be read. -/
def confirm : NetdM (Option Bool) := do
  let n ← call
  return (← get).env.confirm n

/-- `allocEpoch`: a generation is positive. -/
def allocEpoch : NetdM (Option Nat) := do
  let n ← call
  return ((← get).env.alloc n).filter (0 < ·)

def registerClassOrigin : NetdM Reply := do
  let n ← call
  return (← get).env.reply n

/-- `Evidence` of the address owner. -/
def evidence (ip : Ip) (mac : Bytes) : NetdM Evidence := do
  let n ← call
  return (← get).env.evidence n ip mac

end StayConnect.Netd
