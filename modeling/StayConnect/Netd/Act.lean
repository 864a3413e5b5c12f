import StayConnect.Netd.Run
import StayConnect.Prog

/-!
# What a pass can do

Every change a pass makes to the world, said once: `Act o` is one change made on behalf of the
sessions, addresses and classes of the scope `o`, with what must hold when it is made. The programs of
the pass are shown to make only such changes (`Steps`, `Wp`), and the invariants of netd are invariants
of `Act`.
-/

namespace StayConnect.Netd

open Framing Prog Relation

def World.events (w : World) : List Event := w.log.takeWhile (· ≠ .began)

/-- The generation the session's class was last recorded under. -/
def generation (log : List Event) (k : Key) : Option Nat :=
  log.findSome? fun
    | .admitted k' e => if k' = k then some e else none
    | _ => none

/-- Durable state called the session active under the generation, or an answer for another one was
taken for it. -/
def Backed (log : List Event) (k : Key) (e : Nat) : Prop := .answered k e ∈ log ∨ .stale k e ∈ log

/-- The session's current class generation is backed. -/
def Proven (log : List Event) (k : Key) : Prop := ∃ e, generation log k = some e ∧ Backed log k e

/-- The set has an element for the address, lapsed or not. -/
def Listed (w : World) (a : Addr) : Prop := (w.kern.auth.lookup a).isSome

/-- The pass has reported nothing so far. -/
def World.clean (w : World) : Prop := w.pass.res.failed = 0 ∧ w.pass.res.problems = []

/-- What neither a pass nor a start changes. -/
structure Settings (w w' : World) : Prop where
  env : w'.env = w.env
  bootID : w'.bootID = w.bootID
  clock : w.clock ≤ w'.clock
  mode : w'.mem.mode = w.mem.mode
  fastPath : w'.mem.fastPath = w.mem.fastPath
  noBatch : w'.mem.noBatch = w.mem.noBatch
  lastAccepted : w'.mem.lastAccepted = w.mem.lastAccepted
  lastConverged : w'.mem.lastConverged = w.mem.lastConverged
  arrivedGen : w'.mem.arrivedGen = w.mem.arrivedGen
  memo : w'.mem.memo = w.mem.memo
  cont : w'.mem.cont = w.mem.cont
  tick : w'.tick = w.tick

lemma Settings.trans {u v w} (h : Settings u v) (h' : Settings v w) : Settings u w where
  env := h'.env.trans h.env
  bootID := h'.bootID.trans h.bootID
  clock := h.clock.trans h'.clock
  mode := h'.mode.trans h.mode
  fastPath := h'.fastPath.trans h.fastPath
  noBatch := h'.noBatch.trans h.noBatch
  lastAccepted := h'.lastAccepted.trans h.lastAccepted
  lastConverged := h'.lastConverged.trans h.lastConverged
  arrivedGen := h'.arrivedGen.trans h.arrivedGen
  memo := h'.memo.trans h.memo
  cont := h'.cont.trans h.cont
  tick := h'.tick.trans h.tick

/-- What no part of a pass changes. -/
structure Outer (w w' : World) : Prop extends Settings w w' where
  asked : w.calls ≤ w'.calls
  plan : w'.disk.plan = w.disk.plan
  contState : w'.disk.contState = w.disk.contState
  contJournal : w'.disk.contJournal = w.disk.contJournal

/-- Time passes, reports are made, files and memory nothing here speaks of change. -/
structure Idle (w w' : World) : Prop extends Outer w w' where
  auth : w'.kern.auth = w.kern.auth
  tc : ∀ slot, (w'.kern.tc.lookup slot).isSome → (w.kern.tc.lookup slot).isSome
  log : w'.log = w.log
  epochs : w'.mem.epochs = w.mem.epochs
  provenAt : w'.mem.provenAt = w.mem.provenAt
  groupSlots : w'.mem.groupSlots = w.mem.groupSlots
  batched : w'.pass.batched = w.pass.batched
  denies : w'.pass.denies = w.pass.denies
  renew : w'.pass.renew = w.pass.renew
  walkRenewable : w'.pass.walkRenewable = w.pass.walkRenewable
  activations : ∀ k x, w'.pass.activations k = some x → w.pass.activations k = some x
  clean : w'.clean → w.clean

lemma Outer.aside {w kern classState journal epochs pending minorOwner quarantined unprovenUnknown journalUnreadable classSaveFailed classes bootID endedTorn unverified leaseMem groupSlots provenAt indivCursor regroupsDeferred pass log} :
    Outer w { w with
      kern, disk.classState := classState, disk.journal := journal, pass, log,
      mem.epochs := epochs, mem.pending := pending, mem.minorOwner := minorOwner, mem.quarantined := quarantined,
      mem.unprovenUnknown := unprovenUnknown, mem.journalUnreadable := journalUnreadable,
      mem.classSaveFailed := classSaveFailed, mem.classes := classes, mem.bootID := bootID, mem.endedTorn := endedTorn,
      mem.unverified := unverified, mem.leaseMem := leaseMem, mem.groupSlots := groupSlots, mem.provenAt := provenAt,
      mem.indivCursor := indivCursor, mem.regroupsDeferred := regroupsDeferred } :=
  ⟨⟨rfl, rfl, Nat.le_refl _, rfl, rfl, rfl, rfl, rfl, rfl, rfl, rfl, rfl⟩, Nat.le_refl _, rfl, rfl, rfl⟩

lemma Outer.refl (w : World) : Outer w w := .aside

lemma Outer.trans {u v w} (h : Outer u v) (h' : Outer v w) : Outer u w where
  toSettings := h.toSettings.trans h'.toSettings
  asked := h.asked.trans h'.asked
  plan := h'.plan.trans h.plan
  contState := h'.contState.trans h.contState
  contJournal := h'.contJournal.trans h.contJournal

lemma Idle.aside {w filters classState journal pending minorOwner quarantined unprovenUnknown journalUnreadable classSaveFailed classes bootID endedTorn unverified leaseMem indivCursor regroupsDeferred tornDown straysRemoved shaped endedMidPass degraded ends renewed read groups made regroups start deadline retired} :
    Idle w { w with
      kern.filters := filters, disk.classState := classState, disk.journal := journal,
      mem.pending := pending, mem.minorOwner := minorOwner, mem.quarantined := quarantined,
      mem.unprovenUnknown := unprovenUnknown, mem.journalUnreadable := journalUnreadable,
      mem.classSaveFailed := classSaveFailed, mem.classes := classes, mem.bootID := bootID, mem.endedTorn := endedTorn,
      mem.unverified := unverified, mem.leaseMem := leaseMem, mem.indivCursor := indivCursor,
      mem.regroupsDeferred := regroupsDeferred, pass.res.tornDown := tornDown, pass.res.straysRemoved := straysRemoved,
      pass.res.shaped := shaped, pass.res.degraded := degraded, pass.res.endedMidPass := endedMidPass, pass.ends := ends,
      pass.renewed := renewed, pass.classes := read, pass.groupClasses := groups, pass.groups := made, pass.regroups := regroups,
      pass.start := start, pass.deadline := deadline, pass.retired := retired } :=
  ⟨.aside, rfl, fun _ => id, rfl, rfl, rfl, rfl, rfl, rfl, rfl, rfl, fun _ _ => id, id⟩

lemma Idle.refl (w : World) : Idle w w := .aside

lemma Idle.reported {w res} (h : res.failed = 0 ∧ res.problems = [] → w.clean) : Idle w { w with pass.res := res } :=
  ⟨.aside, rfl, fun _ => id, rfl, rfl, rfl, rfl, rfl, rfl, rfl, rfl, fun _ _ => id, h⟩

lemma Idle.classes {w kern} (auth : kern.auth = w.kern.auth)
    (h : ∀ slot, (kern.tc.lookup slot).isSome → (w.kern.tc.lookup slot).isSome) : Idle w { w with kern } :=
  ⟨.aside, auth, h, rfl, rfl, rfl, rfl, rfl, rfl, rfl, rfl, fun _ _ => id, id⟩

lemma Idle.trans {u v w} (h : Idle u v) (h' : Idle v w) : Idle u w where
  toOuter := h.toOuter.trans h'.toOuter
  auth := h'.auth.trans h.auth
  tc slot hs := h.tc slot (h'.tc slot hs)
  log := h'.log.trans h.log
  epochs := h'.epochs.trans h.epochs
  provenAt := h'.provenAt.trans h.provenAt
  groupSlots := h'.groupSlots.trans h.groupSlots
  batched := h'.batched.trans h.batched
  denies := h'.denies.trans h.denies
  renew := h'.renew.trans h.renew
  walkRenewable := h'.walkRenewable.trans h.walkRenewable
  activations k x hk := h.activations k x (h'.activations k x hk)
  clean hc := h.clean (h'.clean hc)

/-- Whose changes these are. -/
structure Scope where
  keys : Key → Prop
  addrs : Addr → Prop
  slots : Slot → Prop
  /-- Classes may be recorded under a new generation. -/
  fresh : Prop
  /-- Leases may be queued. -/
  queues : Prop
  /-- Elements may be removed. -/
  revokes : Prop
  /-- These sessions may be noted as proven. -/
  proves : Key → Prop
  /-- Sessions may be noted as renewable. -/
  notes : Prop
  /-- Denials may be queued. -/
  denies : Prop
  /-- Leases may be granted for these addresses. -/
  grants : Addr → Prop
  /-- No session is listed twice by the plan. -/
  once : Prop

/-- The session a queued lease is for. -/
def PendingRenew.key (r : PendingRenew) : Key := ⟨r.addr.bridge, r.sessionID⟩

/-- A lease the walk granted, full only when the session is proven. -/
structure Leased (once : Prop) (w : World) (k : Key) (a : Addr) (ttl : Nat) : Prop where
  granted : ∃ lease left dhcp, .granted k a lease left dhcp ∈ w.events ∧ ttl ≤ lease
  proven : once → ttl ≤ phase3ProvisionalLease ∨ Proven w.log k

/-- One change made by a pass on behalf of `o`. -/
inductive Act (o : Scope) : World → World → Prop where
  | idle {w w' : World} : Idle w w' → Act o w w'
  | build {w : World} (slot : Slot) (c : Class) :
    o.slots slot ∨ isGuestMinor slot.minor = false →
    Act o w { w with kern.tc := w.kern.tc.insert slot c }
  | forget {w : World} (k : Key) :
    Act o w { w with mem.provenAt := Function.update w.mem.provenAt k none }
  | endSeries {w : World} (k : Key) : Act o w { w with mem := w.mem.endSeries k }
  | answered {w : World} (k : Key) (e : Nat) : Act o w { w with log := .answered k e :: w.log }
  | stale {w : World} (k : Key) (e : Nat) : Act o w { w with log := .stale k e :: w.log }
  | ahead {w : World} (k : Key) (e : Nat) (r : Reply) :
    (r = .ok → .answered k e ∈ w.log) →
    Act o w { w with pass.activations := Function.update w.pass.activations k (some (e, r)) }
  | proven {w : World} (k : Key) (e t : Nat) : o.proves k → Backed w.log k e →
    Act o w { w with mem.provenAt := Function.update w.mem.provenAt k (some ⟨e, t⟩) }
  | admitted {w : World} (c : Cand) (e : Nat) : o.keys c.key → o.fresh →
    (o.once → ∀ a r, w.pass.renew.lookup a = some r → r.key ≠ c.key) →
    Act o w { w with mem := w.mem.manage c e, log := .admitted c.key e :: w.log }
  | noted {w : World} (c : Cand) (now : Nat) : o.notes → o.keys c.key → o.addrs c.addr →
    Act o w { w with
      pass.walkRenewable := w.pass.walkRenewable.insert c.key (c.renewSession now)
      log := .noted c.key c.addr :: w.log }
  | ended {w : World} (k : Key) (a : Addr) : o.keys k → o.addrs a →
    Act o w { w with log := .ended k a :: w.log }
  | deny {w : World} (d : PendingDeny) : w.pass.batched = true → o.denies → o.addrs d.addr →
    (d.quiet = true → ∃ k, .ended k d.addr ∈ w.events) → (d.abort = false → ¬ w.clean) →
    Act o w { w with pass.denies := w.pass.denies ++ [d] }
  | renew {w : World} (r : PendingRenew) : w.pass.batched = true → o.queues → o.keys r.key → o.addrs r.addr →
    Leased o.once w r.key r.addr r.want →
    Act o w { w with pass.renew := w.pass.renew.insert r.addr r }
  | authorized {w : World} (r : GateLease) : o.keys r.key → o.addrs r.addr →
    Leased o.once w r.key r.addr r.ttl → Act o w (r.write w)
  | revoked {w : World} (a : Addr) : o.revokes → o.addrs a → Act o w (eraseAuth a w)

structure Scope.Le (o o' : Scope) : Prop where
  keys : ∀ k, o.keys k → o'.keys k
  addrs : ∀ a, o.addrs a → o'.addrs a
  slots : ∀ slot, o.slots slot → o'.slots slot
  fresh : o.fresh → o'.fresh
  queues : o.queues → o'.queues
  revokes : o.revokes → o'.revokes
  proves : ∀ k, o.proves k → o'.proves k
  notes : o.notes → o'.notes
  denies : o.denies → o'.denies
  grants : ∀ a, o.grants a → o'.grants a
  once : o'.once → o.once

section
variable {o : Scope} {w w' : World}

lemma Act.mono {o'} (le : o.Le o') (h : Act o w w') : Act o' w w' := by
  cases h with
  | idle h => exact .idle h
  | build slot c h => exact .build slot c (h.imp_left (le.slots slot))
  | forget k => exact .forget k
  | endSeries k => exact .endSeries k
  | answered k e => exact .answered k e
  | stale k e => exact .stale k e
  | ahead k e r h => exact .ahead k e r h
  | proven k e t hp hb => exact .proven k e t (le.proves k hp) hb
  | admitted c e hk hf hq => exact .admitted c e (le.keys _ hk) (le.fresh hf) fun ho => hq (le.once ho)
  | noted c now hn hk ha => exact .noted c now (le.notes hn) (le.keys _ hk) (le.addrs _ ha)
  | ended k a hk ha => exact .ended k a (le.keys k hk) (le.addrs a ha)
  | deny d hb hd ha hq hc => exact .deny d hb (le.denies hd) (le.addrs _ ha) hq hc
  | renew r hb hq hk ha hl =>
    exact .renew r hb (le.queues hq) (le.keys _ hk) (le.addrs _ ha) ⟨hl.granted, fun ho => hl.proven (le.once ho)⟩
  | authorized r hk ha hl =>
    exact .authorized r (le.keys _ hk) (le.addrs _ ha) ⟨hl.granted, fun ho => hl.proven (le.once ho)⟩
  | revoked a hr ha => exact .revoked a (le.revokes hr) (le.addrs a ha)

lemma Act.outer (h : Act o w w') : Outer w w' := by
  cases h with
  | idle h => exact h.toOuter
  | _ => exact .aside

lemma Act.clean (h : Act o w w') (hc : w'.clean) : w.clean := by
  cases h with
  | idle h => exact h.clean hc
  | _ => exact hc

/-- What the scope can put on the record. -/
def Scope.emits (o : Scope) : Event → Prop
  | .began | .granted .. | .enforced .. => False
  | .answered .. | .stale .. => True
  | .admitted k _ => o.fresh ∧ o.keys k
  | .revoked a => o.revokes ∧ o.addrs a
  | .noted k a => o.notes ∧ o.keys k ∧ o.addrs a
  | .authorized k a .. | .ended k a => o.keys k ∧ o.addrs a

lemma Act.log (h : Act o w w') : ∃ new, w'.log = new ++ w.log ∧ ∀ e ∈ new, o.emits e := by
  cases h with
  | idle h => exact ⟨[], h.log, by simp⟩
  | answered | stale => exact ⟨[_], rfl, by simp [Scope.emits]⟩
  | admitted c e hk hf => exact ⟨[_], rfl, by simp [Scope.emits, hk, hf]⟩
  | noted c now hn hk ha => exact ⟨[_], rfl, by simp [Scope.emits, hn, hk, ha]⟩
  | ended k a hk ha | authorized r hk ha => exact ⟨[_], rfl, by simp [Scope.emits, hk, ha]⟩
  | revoked a hr ha => exact ⟨[_], rfl, by simp [Scope.emits, hr, ha]⟩
  | _ => exact ⟨[], rfl, by simp⟩

lemma events_of_log {new} (h : w'.log = new ++ w.log) (he : ∀ e ∈ new, o.emits e) : w'.events = new ++ w.events := by
  unfold World.events
  rw [h, List.takeWhile_append_of_pos]
  intro e hmem
  have hne : e ≠ .began := by
    rintro rfl
    exact he _ hmem
  simpa using hne

lemma Act.mem_log (h : Act o w w') {e} (he : e ∈ w.log) : e ∈ w'.log := by
  obtain ⟨new, hlog, -⟩ := h.log
  rw [hlog]
  exact List.mem_append_right _ he

lemma Act.mem_events (h : Act o w w') {e} (he : e ∈ w.events) : e ∈ w'.events := by
  obtain ⟨new, hlog, hnew⟩ := h.log
  rw [events_of_log hlog hnew]
  exact List.mem_append_right _ he

variable {k : Key} {a : Addr}

lemma Act.backed (h : Act o w w') {e} (hb : Backed w.log k e) : Backed w'.log k e :=
  hb.imp h.mem_log h.mem_log

/-- A generation changes only when a class of the scope is recorded, and then no lease of the session
is queued. -/
lemma Act.regenerated (h : Act o w w') (k : Key) :
    generation w'.log k = generation w.log k ∨ (o.keys k ∧ o.fresh ∧ (o.once → ∀ a r, w.pass.renew.lookup a = some r → r.key ≠ k)) := by
  cases h with
  | idle h => exact .inl (by rw [h.log])
  | admitted c e hk hf hq =>
    rcases eq_or_ne c.key k with rfl | hne
    · exact .inr ⟨hk, hf, hq⟩
    · exact .inl (by simp [generation, hne])
  | _ => exact .inl rfl

lemma Leased.mono {once ttl ttl'} (h : Leased once w k a ttl) (le : ttl' ≤ ttl) : Leased once w k a ttl' where
  granted := by
    obtain ⟨lease, left, dhcp, hg, hle⟩ := h.granted
    exact ⟨lease, left, dhcp, hg, le.trans hle⟩
  proven ho := (h.proven ho).imp_left le.trans

lemma Act.leased (h : Act o w w') {once ttl} (hl : Leased once w k a ttl) (hg : once → generation w'.log k = generation w.log k) :
    Leased once w' k a ttl where
  granted := by
    obtain ⟨lease, left, dhcp, hm, hle⟩ := hl.granted
    exact ⟨lease, left, dhcp, h.mem_events hm, hle⟩
  proven ho := by
    refine (hl.proven ho).imp_right ?_
    rintro ⟨e, he, hb⟩
    exact ⟨e, (hg ho).trans he, h.backed hb⟩

/-- What holds throughout a pass. -/
structure Inv (once : Prop) (w : World) : Prop where
  marked : ∀ k m, w.mem.provenAt k = some m → Backed w.log k m.epoch
  ahead : ∀ k e, w.pass.activations k = some (e, .ok) → .answered k e ∈ w.log
  current : ∀ k e, w.mem.epochs k = some e → generation w.log k = some e
  groups : ∀ id g, w.mem.groupSlots.lookup id = some g → isGuestMinor g = false
  queued : ∀ a r, w.pass.renew.lookup a = some r → r.addr = a ∧ Leased once w r.key r.addr r.want
  denied : ∀ d ∈ w.pass.denies,
    (d.quiet = true → ∃ k, .ended k d.addr ∈ w.events) ∧ (d.abort = false → ¬ w.clean)

lemma Act.keep_marked (h : Act o w w') (hi : ∀ k m, w.mem.provenAt k = some m → Backed w.log k m.epoch)
    (k : Key) (m : ProvenMark) (hm : w'.mem.provenAt k = some m) : Backed w'.log k m.epoch := by
  refine h.backed ?_
  cases h with
  | idle h => exact hi k m (h.provenAt ▸ hm)
  | forget k' | endSeries k' =>
    rcases eq_or_ne k k' with rfl | hk
    · simp [Mem.endSeries] at hm
    · simp only [Mem.endSeries, Function.update_of_ne hk] at hm
      exact hi k m hm
  | proven k' e t _ hb =>
    rcases eq_or_ne k k' with rfl | hk
    · simp only [Function.update_self, Option.some.injEq] at hm
      exact hm ▸ hb
    · simp only [Function.update_of_ne hk] at hm
      exact hi k m hm
  | _ => exact hi k m hm

lemma Act.keep_ahead (h : Act o w w') (hi : ∀ k e, w.pass.activations k = some (e, .ok) → .answered k e ∈ w.log)
    (k : Key) (e : Nat) (ha : w'.pass.activations k = some (e, .ok)) : .answered k e ∈ w'.log := by
  refine h.mem_log ?_
  cases h with
  | idle h => exact hi k e (h.activations k _ ha)
  | ahead k' e' r hr =>
    rcases eq_or_ne k k' with rfl | hk
    · simp only [Function.update_self, Option.some.injEq, Prod.mk.injEq] at ha
      exact ha.1 ▸ hr ha.2
    · simp only [Function.update_of_ne hk] at ha
      exact hi k e ha
  | _ => exact hi k e ha

lemma Act.keep_current (h : Act o w w') (hi : ∀ k e, w.mem.epochs k = some e → generation w.log k = some e)
    (k : Key) (e : Nat) (he : w'.mem.epochs k = some e) : generation w'.log k = some e := by
  cases h with
  | idle h => exact h.log ▸ hi k e (h.epochs ▸ he)
  | endSeries k' =>
    rcases eq_or_ne k k' with rfl | hk
    · simp [Mem.endSeries] at he
    · simp only [Mem.endSeries, Function.update_of_ne hk] at he
      exact hi k e he
  | admitted c e' =>
    rcases eq_or_ne k c.key with rfl | hk
    · simpa [Mem.manage, generation] using he
    · simp only [Mem.manage, Function.update_of_ne hk] at he
      simpa [generation, hk.symm] using hi k e he
  | _ => exact hi k e he

lemma Act.groupSlots (h : Act o w w') : w'.mem.groupSlots = w.mem.groupSlots := by
  cases h with
  | idle h => exact h.groupSlots
  | _ => rfl

lemma Act.keep_queued (h : Act o w w') (hi : ∀ a r, w.pass.renew.lookup a = some r → r.addr = a ∧ Leased o.once w r.key r.addr r.want)
    (a : Addr) (r : PendingRenew) (hr : w'.pass.renew.lookup a = some r) : r.addr = a ∧ Leased o.once w' r.key r.addr r.want := by
  -- A lease queued before keeps its generation: a class is recorded only with none queued.
  have old : ∀ a r, w.pass.renew.lookup a = some r → r.addr = a ∧ Leased o.once w' r.key r.addr r.want := by
    intro a r hr
    refine ⟨(hi a r hr).1, h.leased (hi a r hr).2 fun ho => ?_⟩
    rcases h.regenerated r.key with hg | ⟨-, -, hq⟩
    · exact hg
    · exact absurd rfl (hq ho a r hr)
  cases h with
  | idle h => exact old a r (h.renew ▸ hr)
  | renew r' _ _ hk ha hl =>
    rcases eq_or_ne a r'.addr with rfl | hne
    · simp only [AList.lookup_insert, Option.some.injEq] at hr
      subst hr
      exact ⟨rfl, hl.granted, hl.proven⟩
    · simp only [AList.lookup_insert_ne hne] at hr
      exact old a r hr
  | _ => exact old a r hr

lemma Act.keep_denied (h : Act o w w')
    (hi : ∀ d ∈ w.pass.denies, (d.quiet = true → ∃ k, .ended k d.addr ∈ w.events) ∧ (d.abort = false → ¬ w.clean))
    (d : PendingDeny) (hd : d ∈ w'.pass.denies) :
    (d.quiet = true → ∃ k, .ended k d.addr ∈ w'.events) ∧ (d.abort = false → ¬ w'.clean) := by
  have old : (d.quiet = true → ∃ k, .ended k d.addr ∈ w.events) ∧ (d.abort = false → ¬ w.clean) := by
    cases h with
    | idle h => exact hi d (h.denies ▸ hd)
    | deny d' _ _ ha hq hc =>
      rcases List.mem_append.mp hd with hd | hd
      · exact hi d hd
      · obtain rfl := List.mem_singleton.mp hd
        exact ⟨hq, hc⟩
    | _ => exact hi d hd
  refine ⟨fun hq => ?_, fun ha hc => old.2 ha (h.clean hc)⟩
  obtain ⟨k, hk⟩ := old.1 hq
  exact ⟨k, h.mem_events hk⟩

/-- A failure was reported, the session at the address has ended, or a denial of it is queued that will
be reported as a failure. -/
def Closed (w : World) (a : Addr) : Prop :=
  ¬ w.clean ∨ (∃ k, .ended k a ∈ w.events) ∨
    ∃ d ∈ w.pass.denies, d.addr = a ∧ d.abort = true ∧ d.quiet = false

/-- The address has its element, or is about to be written, or was given up. -/
def Kept (w : World) (a : Addr) : Prop := Closed w a ∨ Listed w a ∨ (w.pass.renew.lookup a).isSome

lemma Act.batched (h : Act o w w') : w'.pass.batched = w.pass.batched := by
  cases h with
  | idle h => exact h.batched
  | _ => rfl

lemma Act.denies (h : Act o w w') {d} (hd : d ∈ w.pass.denies) : d ∈ w'.pass.denies := by
  cases h with
  | idle h => exact h.denies ▸ hd
  | deny => exact List.mem_append_left _ hd
  | _ => exact hd

lemma Act.keep_closed (h : Act o w w') (hc : Closed w a) : Closed w' a := by
  rcases hc with hc | ⟨k, hk⟩ | ⟨d, hd, ha⟩
  · exact .inl fun hw => hc (h.clean hw)
  · exact .inr (.inl ⟨k, h.mem_events hk⟩)
  · exact .inr (.inr ⟨d, h.denies hd, ha⟩)

lemma Act.listed (h : Act o w w') (ha : ¬ (o.addrs a ∧ o.revokes)) (hl : Listed w a) : Listed w' a := by
  cases h with
  | idle h => unfold Listed; rwa [h.auth]
  | authorized r =>
    rcases eq_or_ne a r.addr with rfl | hne
    · simp [Listed, GateLease.write]
    · simpa [Listed, GateLease.write, AList.lookup_insert_ne hne] using hl
  | revoked b hr hb =>
    have hne : a ≠ b := fun h => ha ⟨h ▸ hb, hr⟩
    simpa [Listed, eraseAuth, AList.lookup_erase_ne hne] using hl
  | _ => exact hl

lemma Act.renew_isSome (h : Act o w w') (hr : (w.pass.renew.lookup a).isSome) : (w'.pass.renew.lookup a).isSome := by
  cases h with
  | idle h => exact h.renew ▸ hr
  | renew r =>
    rcases eq_or_ne a r.addr with rfl | hne
    · simp
    · simpa [AList.lookup_insert_ne hne] using hr
  | _ => exact hr

lemma Act.keep_kept (h : Act o w w') (ha : ¬ (o.addrs a ∧ o.revokes)) (hk : Kept w a) : Kept w' a := by
  rcases hk with hc | hg | hr
  · exact .inl (h.keep_closed hc)
  · exact .inr (.inl (h.listed ha hg))
  · exact .inr (.inr (h.renew_isSome hr))

lemma Act.keep_inv (h : Act o w w') (hi : Inv o.once w) : Inv o.once w' where
  marked := h.keep_marked hi.marked
  ahead := h.keep_ahead hi.ahead
  current := h.keep_current hi.current
  groups := h.groupSlots ▸ hi.groups
  queued := h.keep_queued hi.queued
  denied := h.keep_denied hi.denied

variable {a : Addr} {k : Key}

lemma moves_outer (moves : ReflTransGen (Act o) w w') : Outer w w' :=
  keep (S := Outer w) (fun act h => h.trans act.outer) moves (Outer.refl w)

lemma Act.left_none (h : Act o w w') (ha : ∀ r : GateLease, o.keys r.key → o.addrs r.addr → r.addr ≠ a)
    (hl : w.left a = none) : w'.left a = none := by
  rw [left_eq_none] at hl ⊢
  cases h with
  | idle hi =>
    intro e he
    obtain ⟨t, rfl, ht⟩ := hl e (hi.auth ▸ he)
    exact ⟨t, rfl, ht.trans hi.clock⟩
  | authorized r hk hr => simpa [GateLease.write, AList.lookup_insert_ne (ha r hk hr).symm] using hl
  | revoked b =>
    rcases eq_or_ne a b with rfl | hne
    · simp [eraseAuth]
    · simpa [eraseAuth, AList.lookup_erase_ne hne] using hl
  | _ => exact hl

section
variable (moves : ReflTransGen (Act o) w w')
include moves

lemma moves_left_none (ha : ∀ r : GateLease, o.keys r.key → o.addrs r.addr → r.addr ≠ a) (hl : w.left a = none) : w'.left a = none :=
  keep (S := fun t => t.left a = none) (fun act h => act.left_none ha h) moves hl

lemma moves_inv (hi : Inv o.once w) : Inv o.once w' :=
  keep Act.keep_inv moves hi

lemma moves_clean (h : w'.clean) : w.clean :=
  keep (S := fun t => t.clean → w.clean) (fun act ht hc => ht (act.clean hc)) moves id h

lemma moves_batched : w'.pass.batched = w.pass.batched :=
  keep (S := fun t => t.pass.batched = w.pass.batched) (fun act h => act.batched.trans h) moves rfl

lemma moves_mem_events {e} (h : e ∈ w.events) : e ∈ w'.events :=
  keep (S := fun t => e ∈ t.events) (fun act h => act.mem_events h) moves h

lemma moves_closed (h : Closed w a) : Closed w' a :=
  keep (S := fun t => Closed t a) (fun act h => act.keep_closed h) moves h

lemma moves_kept (ha : ¬ (o.addrs a ∧ o.revokes)) (h : Kept w a) : Kept w' a :=
  keep (S := fun t => Kept t a) (fun act h => act.keep_kept ha h) moves h

end

lemma Act.renew_lookup (h : Act o w w') {r} (hr : w'.pass.renew.lookup a = some r) :
    w.pass.renew.lookup a = some r ∨ (o.queues ∧ o.keys r.key) := by
  cases h with
  | idle h => exact .inl (h.renew ▸ hr)
  | renew r' _ hq hk =>
    rcases eq_or_ne a r'.addr with rfl | hne
    · simp only [AList.lookup_insert, Option.some.injEq] at hr
      exact .inr (hr ▸ ⟨hq, hk⟩)
    · exact .inl (by simpa [AList.lookup_insert_ne hne] using hr)
  | _ => exact .inl hr

lemma moves_log (moves : ReflTransGen (Act o) w w') : ∃ new, w'.log = new ++ w.log ∧ ∀ e ∈ new, o.emits e :=
  grown Act.log moves

lemma moves_events (moves : ReflTransGen (Act o) w w') {e} (he : e ∈ w'.events) : e ∈ w.events ∨ o.emits e := by
  obtain ⟨new, hlog, hnew⟩ := moves_log moves
  rw [events_of_log hlog hnew, List.mem_append] at he
  exact he.symm.imp_right (hnew e)

lemma Act.renew_eq (h : Act o w w') (hq : ¬ (o.queues ∧ w.pass.batched = true)) : w'.pass.renew = w.pass.renew := by
  cases h with
  | idle h => exact h.renew
  | renew r hb hqueues => exact absurd ⟨hqueues, hb⟩ hq
  | _ => rfl

lemma moves_renew (moves : ReflTransGen (Act o) w w') (hq : ¬ (o.queues ∧ w.pass.batched = true)) : w'.pass.renew = w.pass.renew :=
  (keep (S := fun t => t.pass.renew = w.pass.renew ∧ t.pass.batched = w.pass.batched)
    (fun act h => ⟨(act.renew_eq (h.2 ▸ hq)).trans h.1, act.batched.trans h.2⟩) moves ⟨rfl, rfl⟩).1

lemma Act.denies_eq (h : Act o w w') (hd : ¬ (o.denies ∧ w.pass.batched = true)) : w'.pass.denies = w.pass.denies := by
  cases h with
  | idle h => exact h.denies
  | deny d hb hdenies => exact absurd ⟨hdenies, hb⟩ hd
  | _ => rfl

lemma moves_denies (moves : ReflTransGen (Act o) w w') (hd : ¬ (o.denies ∧ w.pass.batched = true)) : w'.pass.denies = w.pass.denies :=
  (keep (S := fun t => t.pass.denies = w.pass.denies ∧ t.pass.batched = w.pass.batched)
    (fun act h => ⟨(act.denies_eq (h.2 ▸ hd)).trans h.1, act.batched.trans h.2⟩) moves ⟨rfl, rfl⟩).1

/-- Without a generation there is no proof. -/
def Tidy (w : World) (k : Key) : Prop := w.mem.epochs k = none → w.mem.provenAt k = none

lemma Act.keep_tidy (h : Act o w w') (hk : ¬ o.proves k) (ht : Tidy w k) : Tidy w' k := by
  cases h with
  | idle h => unfold Tidy; rwa [h.epochs, h.provenAt]
  | forget k' =>
    intro he
    rcases eq_or_ne k k' with rfl | hne
    · simp
    · simpa [Function.update_of_ne hne] using ht he
  | endSeries k' =>
    intro he
    rcases eq_or_ne k k' with rfl | hne
    · simp [Mem.endSeries]
    · simp only [Mem.endSeries, Function.update_of_ne hne] at he ⊢
      exact ht he
  | proven k' e t hp =>
    have hne : k ≠ k' := fun h => hk (h ▸ hp)
    intro he
    simpa [Function.update_of_ne hne] using ht he
  | admitted c e =>
    intro he
    rcases eq_or_ne k c.key with rfl | hne
    · simp [Mem.manage] at he
    · simp only [Mem.manage, Function.update_of_ne hne] at he ⊢
      exact ht he
  | _ => exact ht

def NoQueue (w : World) (k : Key) : Prop := ∀ a r, w.pass.renew.lookup a = some r → r.key ≠ k

lemma moves_noQueue (moves : ReflTransGen (Act o) w w') (hk : ¬ (o.queues ∧ o.keys k)) (h : NoQueue w k) : NoQueue w' k :=
  keep (S := fun t => NoQueue t k) (fun act ht a r hr => (act.renew_lookup hr).elim (ht a r)
    fun hq heq => hk (heq ▸ hq)) moves h

lemma moves_generation (moves : ReflTransGen (Act o) w w') (hk : ¬ (o.keys k ∧ o.fresh)) : generation w'.log k = generation w.log k :=
  keep (S := fun t => generation t.log k = generation w.log k) (fun act h =>
    (act.regenerated k).elim (·.trans h) fun hr => absurd ⟨hr.1, hr.2.1⟩ hk) moves rfl

end

end StayConnect.Netd
