import StayConnect.Netd.Pass
import StayConnect.Netd.Tick

/-!
# What each operation does

The operations of `carryOut`, summed up: a submission is refused, or admitted, enforced (on the fast path
or by a pass), saved and noted by continuity (`Submitted`); a start forgets everything but what the files
give back (`Restarted`); everything else makes side moves. `Base` holds in every state netd reaches.
-/

namespace StayConnect.Netd

open Framing Prog Relation Transition

section
variable {env : Envelope} {now : Nat} {w w' u v : World}

/-- What an admitted plan was checked against. -/
structure Admitted (env : Envelope) (w u : World) (unreadable : Bool) : Prop where
  quiet : Quiet w u
  asked : w.calls ≤ u.calls
  arrived : w.mem.arrivedGen ≤ env.planGeneration
  last : checkLast env (lastPlan.run w).1.join = .ok ()
  guard : unreadable = (lastPlan.run w).1.isNone

/-- The record of the last plan netd has: its own, or the file's. -/
def World.record (w : World) : Option Accepted := w.mem.lastAccepted.or w.disk.plan

lemma of_check {c : Prop} [Decidable c] {why : Reason} {rest : Except Reason Unit}
    (h : (if c then .error why else rest) = .ok ()) : rest = .ok () := by
  split at h
  · cases h
  · exact h

lemma validate_last {hash : List Bytes → List Session → Bytes} {scope : Mode} {last : Option Accepted}
    (h : validate hash env scope last now = .ok ()) : checkLast env last = .ok () := by
  iterate 10 replace h := of_check h
  exact h

lemma lastPlan_wp : Wp Quiet lastPlan (fun last u => Quiet w u ∧ (last = none ∨ last = some w.record)) w := by
  refine .read ?_
  cases hlast : w.mem.lastAccepted with
  | some a => exact .pure ⟨.refl w, .inr (by simp [World.record, hlast])⟩
  | none =>
    refine query_answer.conseq fun r u _ h => ⟨h.1, ?_⟩
    cases r with
    | none => exact .inl rfl
    | some last =>
      have same : u.disk.plan = w.disk.plan := by
        obtain ⟨⟨calls, clock, -⟩, -⟩ := h
        rfl
      exact .inr (by rw [h.2 last rfl, same]; simp [World.record, hlast])

lemma lastPlan_idle : Steps Idle lastPlan := by
  refine .read fun w => ?_
  cases w.mem.lastAccepted
  · exact query_idle
  · exact .pure

lemma admission_wp : Wp Quiet (admission env now)
    (fun r u => Quiet w u ∧ ∀ unreadable, r = .ok unreadable → Admitted env w u unreadable) w := by
  refine .read ?_
  dsimp only
  split
  · exact .pure ⟨.refl w, by simp⟩
  next harrived =>
    split
    · exact .pure ⟨.refl w, by simp⟩
    split
    · exact .pure ⟨.refl w, by simp⟩
    have asked : Wp Quiet lastPlan (fun last u => (Quiet w u ∧ w.calls ≤ u.calls) ∧ last = (lastPlan.run w).1) w :=
      ⟨lastPlan_wp.1, ⟨lastPlan_wp.2.1, (lastPlan_idle.run Idle.refl Idle.trans w).asked⟩, rfl⟩
    refine .bind asked fun last u _ hu => .read ?_
    obtain ⟨⟨hq, hcalls⟩, rfl⟩ := hu
    split
    · exact .pure ⟨hq, by simp⟩
    · rename_i hvalid
      refine .pure ⟨hq, fun unreadable hr => ⟨hq, hcalls, by omega, validate_last hvalid, ?_⟩⟩
      exact (Except.ok.inj hr).symm

/-- The world a walk begins in: the plan is on the record and the budget runs. -/
def World.enforcing (w : World) (env : Envelope) (start deadline : Nat) : World :=
  { w with log := .enforced env.planGeneration env.desiredStateHash :: w.log, pass.start := start, pass.deadline := deadline }

/-- The world after a walk: the memo of it, and the plan counts as accepted. -/
def World.walked (w : World) (env : Envelope) (now : Nat) : World :=
  { w with
    mem.memo := ⟨env.desiredStateHash, now, w.pass.res.clean, w.pass.res, w.pass.walkRenewable⟩
    mem.lastAccepted := some (env.accepted now) }

/-- A plan put in force. -/
inductive Enforced (env : Envelope) (now : Nat) : World → World → Prop where
  | unchanged {w : World} : w.mem.fastPathApplies env now = true →
    Enforced env now w { w with
      log := .enforced env.planGeneration env.desiredStateHash :: w.log
      mem.lastAccepted := some (env.accepted now) }
  | walked {w v w₀ t : World} {W : Walk} (start deadline : Nat) :
    Passed env now (w.enforcing env start deadline) v W w₀ t → Enforced env now w (v.walked env now)

lemma generation_append {new log k} (old : ∀ k e, .admitted k e ∉ new) : generation (new ++ log) k = generation log k := by
  induction new with
  | nil => rfl
  | cons x rest ih =>
    have := ih fun k e hmem => old k e (by simp [hmem])
    cases x with
    | admitted k' e' => exact absurd (by simp) (old k' e')
    | _ => exact this

lemma Base.grow (h : Base w) (new : List Event) (epochs : w'.mem.epochs = w.mem.epochs)
    (provenAt : w'.mem.provenAt = w.mem.provenAt) (groupSlots : w'.mem.groupSlots = w.mem.groupSlots)
    (log : w'.log = new ++ w.log) (old : ∀ k e, .admitted k e ∉ new) : Base w' where
  marked k m hm := by
    rw [log]
    exact (h.marked k m (provenAt ▸ hm)).imp (List.mem_append_right _) (List.mem_append_right _)
  current k e he := by
    rw [log, generation_append old]
    exact h.current k e (epochs ▸ he)
  groups := groupSlots ▸ h.groups

lemma walkPlan_wp {locked unreadable} (h : Base w) :
    Wp Any (walkPlan env now locked unreadable) (fun _ x => ∃ start deadline v w₀ t W,
      Passed env now { w with pass.start := start, pass.deadline := deadline } v W w₀ t ∧ x = v.walked env now) w := by
  have base : Base { w with pass.start := w.clock, pass.deadline := locked + phase3PassTimeout } :=
    h.grow [] rfl rfl rfl rfl (by simp)
  refine .bind (.read (.pure ⟨rfl, rfl⟩) : Wp Any monoNow (fun start t => start = w.clock ∧ t = w) w) fun start t _ ht => ?_
  obtain ⟨rfl, rfl⟩ := ht
  refine .bind (.set (Q := fun _ u => u = { t with pass.start := t.clock, pass.deadline := locked + phase3PassTimeout }) rfl)
    fun _ u _ hu => ?_
  subst hu
  refine .bind (reconcileLocked_wp base) fun res v _ hv => .read ?_
  obtain ⟨W, w₀, x, hp, rfl⟩ := hv
  refine .bind (.set (Q := fun _ y => y = { v with
    mem.memo := ⟨env.desiredStateHash, now, v.pass.res.clean, v.pass.res, v.pass.walkRenewable⟩ }) rfl) fun _ y _ hy => ?_
  refine .bind (.set (Q := fun _ z => z = v.walked env now) (by rw [hy]; rfl)) fun _ z _ hz => .pure ?_
  exact ⟨_, _, v, w₀, x, W, hp, hz⟩

lemma enforcePlan_wp {locked unreadable} (h : Base w) :
    Wp Any (enforcePlan env now locked unreadable) (fun _ => Enforced env now w) w := by
  refine .bind (.set (Q := fun _ t => t = { w with log := .enforced env.planGeneration env.desiredStateHash :: w.log }) rfl)
    fun _ t _ ht => .read ?_
  subst ht
  split
  next hfast =>
    simp only [Bool.and_eq_true] at hfast
    exact .read (.bind (.set rfl : Wp Any (acceptPlan env now) (fun _ u => u = { w with
      log := .enforced env.planGeneration env.desiredStateHash :: w.log
      mem.lastAccepted := some (env.accepted now) }) _) fun _ u _ hu => .pure (hu ▸ .unchanged hfast.2))
  · have base : Base { w with log := .enforced env.planGeneration env.desiredStateHash :: w.log } :=
      h.grow [.enforced env.planGeneration env.desiredStateHash] rfl rfl rfl rfl (by simp)
    refine (walkPlan_wp base).conseq fun _ x _ hx => ?_
    obtain ⟨start, deadline, v, w₀, t, W, hp, rfl⟩ := hx
    exact .walked start deadline hp

/-- The record of the plan may reach the file, and the plan may count as converged. -/
inductive Saved (env : Envelope) (now : Nat) : World → World → Prop where
  | mk {w : World} (calls clock : Nat) (plan : Option Accepted) (converged : Option Accepted) : w.clock ≤ clock →
    plan = w.disk.plan ∨ plan = some (env.accepted now) →
    converged = w.mem.lastConverged ∨ converged = some (env.accepted now) →
    Saved env now w { w with calls, clock, disk.plan := plan, mem.lastConverged := converged }

lemma savePlan_wp {res} : Wp Any (savePlan env now res) (fun _ => Saved env now w) w := by
  have save : Wp Any (perform fun w => { w with disk.plan := some (env.accepted now) })
      (fun _ t => ∃ calls clock plan, w.clock ≤ clock ∧ (plan = w.disk.plan ∨ plan = some (env.accepted now)) ∧
        t = { w with calls, clock, disk.plan := plan }) w := by
    refine .bind (Quiet.wp call_quiet).any fun n t _ ht => .bind (Quiet.wp outcomeOf_quiet).any fun out u _ hu => ?_
    obtain ⟨calls, clock, hc⟩ := ht.trans hu
    unfold land
    split
    · exact .bind (.set (Q := fun _ v => v = { w with calls, clock, disk.plan := some (env.accepted now) }) rfl)
        fun _ v _ hv => .pure ⟨calls, clock, _, hc, .inr rfl, hv⟩
    · exact .pure ⟨calls, clock, _, hc, .inl rfl, rfl⟩
  refine .bind save fun err t _ ht => ?_
  obtain ⟨calls, clock, plan, hc, hp, rfl⟩ := ht
  dsimp only
  generalize (if err = true then { res with degraded := true, problems := res.problems ++ [.notSaved] } else res) = res'
  split
  · exact .bind (.set (Q := fun _ v => v = { w with calls, clock, disk.plan := plan, mem.lastConverged := some (env.accepted now) }) rfl)
      fun _ v _ hv => .pure (hv ▸ .mk calls clock plan _ hc hp (.inr rfl))
  · exact .pure (.mk calls clock plan _ hc hp (.inl rfl))

inductive Submitted (env : Envelope) (now : Nat) : World → World → Prop where
  | refused {w w' : World} : Quiet w w' → Submitted env now w w'
  | admitted {w u v x w' : World} (unreadable : Bool) : Admitted env w u unreadable → Enforced env now u v →
    Saved env now v x → ReflTransGen (Side (.noting env now)) x w' → w' = ((contNotePlan env now).run x).2 →
    Submitted env now w w'

lemma Base.quiet (h : Base w) (hq : Quiet w u) : Base u := by
  obtain ⟨calls, clock, -⟩ := hq
  exact h.grow [] rfl rfl rfl rfl (by simp)

lemma submit_wp (h : Base w) : Wp Any (submit env now) (fun _ => Submitted env now w) w := by
  refine .bind (.read (.pure rfl) : Wp Any monoNow (fun _ t => t = w) w) fun locked t _ ht => ?_
  subst ht
  refine .bind admission_wp.any fun r u _ hu => ?_
  cases r with
  | error why => exact .pure (.refused hu.1)
  | ok unreadable =>
    have hadm := hu.2 unreadable rfl
    refine .bind (enforcePlan_wp (h.quiet hu.1)) fun res v _ hv => .bind savePlan_wp fun res x _ hx => ?_
    have noted : Steps (Side (.noting env now)) (contNotePlan env now) := contNotePlan_side
    exact ⟨.single trivial, .admitted unreadable hadm hv hx (noted x).1 rfl⟩

/-- What a move of a walk can put on the record. -/
def Scope.passes (o : Scope) (e : Event) : Prop := o.emits e ∨ ∃ k a lease left dhcp, e = .granted k a lease left dhcp

variable {W : Walk} {w₀ t : World} {cfg : Config} {op : Op}

lemma PassAct.log {o} (h : PassAct W o w w') : ∃ new, w'.log = new ++ w.log ∧ ∀ e ∈ new, o.passes e := by
  cases h with
  | act h =>
    obtain ⟨new, hlog, hnew⟩ := h.log
    exact ⟨new, hlog, fun e he => .inl (hnew e he)⟩
  | grant c => exact ⟨[_], rfl, by simp [Scope.passes]⟩
  | _ => exact ⟨[], rfl, by simp⟩

lemma Passed.record (h : Passed env now w v W w₀ t) :
    v.log = v.events ++ .began :: w.log ∧ ∀ e ∈ v.events, (Scope.clearing W.once).emits e ∨ (W.shaping fun _ => True).passes e := by
  obtain ⟨new₁, hlog₁, hnew₁⟩ := moves_log h.cleared
  obtain ⟨new₂, hlog₂, hnew₂⟩ := grown (fun act => PassAct.log act) h.walked
  have hlog : v.log = (new₂ ++ new₁) ++ .began :: w.log := by
    rw [hlog₂, hlog₁, h.begun.log, List.append_assoc]
  have hnew : ∀ e ∈ new₂ ++ new₁, (Scope.clearing W.once).emits e ∨ (W.shaping fun _ => True).passes e :=
    fun e he => (List.mem_append.mp he).symm.imp (hnew₁ e) (hnew₂ e)
  have hbegan : ∀ e ∈ new₂ ++ new₁, e ≠ .began := by
    rintro e he rfl
    rcases hnew _ he with he | he | ⟨_, _, _, _, _, he⟩
    · exact he
    · exact he
    · cases he
  have hevents : v.events = new₂ ++ new₁ := by
    unfold World.events
    rw [hlog, List.takeWhile_append_of_pos (by simpa using hbegan)]
    simp
  rw [hevents]
  exact ⟨hlog, hnew⟩

lemma Passed.enforced {start deadline} (h : Passed env now (u.enforcing env start deadline) v W w₀ t) :
    v.log = (v.events ++ [.began, .enforced env.planGeneration env.desiredStateHash]) ++ u.log := by
  rw [List.append_assoc]
  exact h.record.1

lemma Side.noted (h : Side (.noting env now) w w') : w'.log = w.log ∧ w'.kern = w.kern := by
  cases h with
  | wrote r hr => exact hr.elim
  | erased a ha => exact ha.elim
  | _ => exact ⟨rfl, rfl⟩

lemma sides_noted (moves : ReflTransGen (Side (.noting env now)) w w') : w'.log = w.log ∧ w'.kern = w.kern :=
  keep (S := fun t => t.log = w.log ∧ t.kern = w.kern) (fun act h => ⟨act.noted.1.trans h.1, act.noted.2.trans h.2⟩)
    moves ⟨rfl, rfl⟩

lemma Submitted.pass {pass} (h : Submitted env now w w')
    (hlog : w'.log = pass ++ .began :: .enforced env.planGeneration env.desiredStateHash :: w.log) :
    ∃ u v x w₀ t W start deadline, (Quiet w u ∧ w.calls ≤ u.calls) ∧ Passed env now (u.enforcing env start deadline) v W w₀ t ∧
      Saved env now (v.walked env now) x ∧ ReflTransGen (Side (.noting env now)) x w' ∧ v.events = pass := by
  cases h with
  | refused hq =>
    obtain ⟨calls, clock, -⟩ := hq
    have := congrArg List.length hlog
    simp at this
    omega
  | @admitted u v x _ unreadable ha he hsave moves =>
    have hu : u.log = w.log := by
      obtain ⟨calls, clock, -⟩ := ha.quiet
      rfl
    have hx : x.log = v.log := by
      obtain ⟨calls, clock, plan, converged, -, -, -⟩ := hsave
      rfl
    have hv : w'.log = v.log := (sides_noted moves).1.trans hx
    cases he with
    | unchanged =>
      have := congrArg List.length (hlog.symm.trans hv)
      simp [hu] at this
      omega
    | @walked v w₀ t W start deadline hp =>
      refine ⟨u, v, x, w₀, t, W, start, deadline, ⟨ha.quiet, ha.asked⟩, hp, hsave, moves, ?_⟩
      have : v.events ++ (.began :: .enforced env.planGeneration env.desiredStateHash :: w.log) =
          pass ++ (.began :: .enforced env.planGeneration env.desiredStateHash :: w.log) := by
        rw [← hlog, hv, ← hu]
        exact hp.record.1.symm
      exact List.append_cancel_right this

/-- What a start does to its empty memory: classes are carried forward, each on the record. -/
structure Starting (w w' : World) : Prop extends Settings w w' where
  kern : w'.kern = w.kern
  disk : w'.disk = w.disk
  pass : w'.pass = w.pass
  provenAt : w'.mem.provenAt = w.mem.provenAt
  groupSlots : w'.mem.groupSlots = w.mem.groupSlots
  log : ∃ new, w'.log = new ++ w.log ∧ ∀ e ∈ new, ∃ k n, e = .admitted k n
  current : (∀ k e, w.mem.epochs k = some e → generation w.log k = some e) →
    ∀ k e, w'.mem.epochs k = some e → generation w'.log k = some e

lemma Starting.refl (w : World) : Starting w w := ⟨(Outer.refl w).toSettings, rfl, rfl, rfl, rfl, rfl, ⟨[], rfl, by simp⟩, id⟩

lemma Starting.trans {u v w} (h : Starting u v) (h' : Starting v w) : Starting u w where
  toSettings := h.toSettings.trans h'.toSettings
  kern := h'.kern.trans h.kern
  disk := h'.disk.trans h.disk
  pass := h'.pass.trans h.pass
  provenAt := h'.provenAt.trans h.provenAt
  groupSlots := h'.groupSlots.trans h.groupSlots
  log := appended_trans h.log h'.log
  current hc := h'.current (h.current hc)

lemma Quiet.starting (h : Quiet w u) : Starting w u := by
  obtain ⟨calls, clock, hc⟩ := h
  exact { Starting.refl w with clock := hc }

lemma Quiet.starts {α : Type} {m : NetdM α} (h : Steps Quiet m) : Steps Starting m := h.mono Quiet.starting

lemma restoreClass_starting {k c} : Steps Starting (restoreClass k c) :=
  .change fun w => { Starting.refl w with
    log := ⟨[_], rfl, by simp⟩
    current := by
      intro h k' e he
      rcases eq_or_ne k' ⟨c.bridge, c.sessionID⟩ with rfl | hne
      · simpa [generation] using he
      · simp only [Function.update_of_ne hne] at he
        simpa [generation, hne.symm] using h k' e he }

lemma kernelInventory_quiet {l} : Steps Quiet (kernelInventory l) := by
  induction l with
  | nil => exact .pure
  | cons b rest ih =>
    refine .bind query_quiet fun cs => ?_
    cases cs with
    | none => exact .pure
    | some cs =>
      refine .bind ih fun more => ?_
      cases more <;> exact .pure

lemma restoreClasses_starting {bootID : Bytes} : Steps Starting (restoreClasses bootID) := by
  refine .bind (Quiet.starts query_quiet) fun st => ?_
  cases st.join with
  | none => exact .pure
  | some st =>
    refine .bind (Quiet.starts kernelInventory_quiet) fun installed => ?_
    cases installed with
    | none => exact .pure
    | some installed =>
      refine .read fun w => ?_
      split
      · exact .pure
      · exact .forM fun _ => restoreClass_starting

lemma loadAttempts_quiet : Steps Quiet loadAttempts := by
  refine .bind query_quiet fun st => ?_
  match st with
  | none => exact .pure
  | some none => exact .pure
  | some (some st) =>
    refine .read fun w => ?_
    split <;> exact .pure

def World.fresh (w : World) (cfg : Config) : World :=
  { w with mem := { mode := cfg.mode, fastPath := cfg.fastPath, noBatch := cfg.noBatch }, pass := {}, tick := .idle }

/-- A start: the classes and attempts of the files, then the continuity record. -/
inductive Restarted (cfg : Config) : World → World → Prop where
  | mk {w x w' : World} : Starting (w.fresh cfg) x → ReflTransGen (Side .starting) x w' → Restarted cfg w w'

lemma contRestore_side : Steps (Side .starting) contRestore := by
  intro w
  refine .bind (query_answer.mono Quiet.side) fun journal t _ ht => ?_
  cases journal with
  | none => exact removeState_side t
  | some journal =>
    obtain rfl : journal = t.disk.contJournal := ht.2 journal rfl
    refine .bind (.change (Q := fun _ u => u.disk = t.disk) (.journalRead trivial) rfl) fun _ u _ hu => ?_
    refine .bind (query_answer.mono Quiet.side) fun st v _ hv => ?_
    match st with
    | none => exact .pure trivial
    | some none => exact .pure trivial
    | some (some st) =>
      have hst : v.disk.contState = some st := (hv.2 (some st) rfl).symm
      refine .bind ((Quiet.wp query_quiet).mono Quiet.side) fun bootID x _ hx =>
        .bind ((Quiet.wp query_quiet).mono Quiet.side) fun nowBoot y _ hy => .read ?_
      have same : y.disk.contState = some st := by
        obtain ⟨calls, clock, -⟩ := hx.trans hy
        exact hst
      dsimp only
      split
      · exact .change (.stateRead st trivial same) trivial
      · exact removeState_side y

lemma restart_wp : Wp Any (restart cfg) (fun _ => Restarted cfg w) w := by
  refine .bind (.set (Q := fun _ t => t = w.fresh cfg) rfl) fun _ t _ ht => ?_
  subst ht
  have classes : ∀ bootID, Steps Starting (do
      modifyMem fun m => { m with bootID }
      restoreClasses bootID
      restoreAttempts) := fun _ =>
    .bind (.change fun w => { Starting.refl w with }) fun _ => .bind restoreClasses_starting fun _ =>
      .bind (Quiet.starts loadAttempts_quiet) fun _ => .change fun w => { Starting.refl w with }
  refine .bind (Quiet.wp query_quiet).any fun bootID u _ hu => ?_
  have started := (classes (bootID.getD [])).run .refl .trans u
  refine ⟨.single trivial, ?_⟩
  exact .mk (hu.starting.trans started) (contRestore_side _).1

def Op.starts : Op → Prop
  | .restart _ | .reboot _ _ | .crash _ _ _ => True
  | _ => False

inductive Stepped : World → Op → World → Prop where
  | arrived {w : World} (gen : Int) : Stepped w (.arrive gen) { w with mem.arrivedGen := max w.mem.arrivedGen gen }
  | submitted {w w' : World} {env : Envelope} {now : Nat} : env.planGeneration ≤ w.mem.arrivedGen →
    Submitted env now w w' → Stepped w (.submit env now) w'
  | refused {w u w' : World} {env : Envelope} {now : Nat} {cfg : Config} : Quiet w u → Restarted cfg u w' →
    Stepped w (.crash env now cfg) w'
  | crashed {w u v w' : World} {env : Envelope} {now : Nat} {cfg : Config} (unreadable : Bool) :
    env.planGeneration ≤ w.mem.arrivedGen → Admitted env w u unreadable → Enforced env now u v → Restarted cfg v w' →
    Stepped w (.crash env now cfg) w'
  | renewed {w w' : World} {now : Nat} : ReflTransGen (Side (.renewing w.mem.renews)) w w' → Stepped w (.renewDue now) w'
  | endedFlows {w w' : World} {ip : BitVec 32} {bridge : Bytes} {now : Nat} :
    ReflTransGen (Side (.revoking (· = { ip := w.env.ipText (.v4 ip), bridge, revokedAt := now }))) w w' →
    Stepped w (.endFlows ip bridge now) w'
  | revoked {w w' : World} {ss es : List Bytes} {ip bridge : Bytes} {now : Nat} :
    ReflTransGen (Side (.revoking (· ∈ revocationsOf ss es ip bridge now))) w w' →
    Stepped w (.continuityRevoke ss es ip bridge now) w'
  | tickRead {w w' : World} {now : Nat} : ReflTransGen (Side {}) w w' → Stepped w (.tickRead now) w'
  | tickBegun {w w' : World} : ReflTransGen (Side {}) w w' → Stepped w .tickBegin w'
  | tickProbed {w w' : World} : ReflTransGen (Side {}) w w' → Stepped w .tickProbe w'
  | tickApplied {w w' : World} {now nowBoot : Nat} {tenantID siteID : Bytes} {out : List Bytes} :
    w.tick = .answered now nowBoot tenantID siteID out → ReflTransGen (Side (.ticking (w.keeps nowBoot))) w w' →
    Stepped w .tickApply w'
  | rescoped {w : World} (mode : Mode) : Stepped w (.scope mode) { w with mem.mode := mode }
  | restarted {w w' : World} {cfg : Config} : Restarted cfg w w' → Stepped w (.restart cfg) w'
  | rebooted {w w' : World} {bootID : Bytes} {cfg : Config} :
    Restarted cfg { w with kern := {}, clock := 0, bootID } w' → Stepped w (.reboot bootID cfg) w'
  | waited {w : World} (ms : Nat) : Stepped w (.wait ms) { w with clock := w.clock + ms }
  | carried {w : World} (slot : Slot) (bytes : Nat) : Stepped w (.traffic slot bytes) ((carryTraffic slot bytes).run w).2

lemma crashedSubmit_wp (h : Base w) : Wp Any (crashedSubmit env now cfg) (fun _ w' =>
    (∃ u, Quiet w u ∧ Restarted cfg u w') ∨
      ∃ unreadable u v, Admitted env w u unreadable ∧ Enforced env now u v ∧ Restarted cfg v w') w := by
  refine .bind (.read (.pure rfl) : Wp Any monoNow (fun _ t => t = w) w) fun locked t _ ht => ?_
  subst ht
  refine .bind admission_wp.any fun r u _ hu => ?_
  cases r with
  | error why => exact restart_wp.conseq fun _ _ _ hx => .inl ⟨u, hu.1, hx⟩
  | ok unreadable =>
    refine .bind (enforcePlan_wp (h.quiet hu.1)) fun res v _ hv => restart_wp.conseq fun _ _ _ hx => ?_
    exact .inr ⟨unreadable, u, v, hu.2 unreadable rfl, hv, hx⟩

lemma carryOut_stepped (hb : Base w) (he : op.enabled w = true) : Wp Any (carryOut op) (fun _ => Stepped w op) w := by
  have side : ∀ {p : Powers} {m : NetdM Unit}, Wp (Side p) m (fun _ _ => True) w →
      Wp Any m (fun _ t => ReflTransGen (Side p) w t) w :=
    fun h => (h.conseq fun _ _ moves _ => moves).any
  cases op with
  | arrive gen => exact .set (.arrived gen)
  | submit env now =>
    exact ((submit_wp hb).conseq fun _ _ _ h => .submitted (by simpa [Op.enabled] using he) h).discard
  | crash env now cfg =>
    refine (crashedSubmit_wp hb).conseq fun _ w' _ h => ?_
    rcases h with ⟨u, hu, hr⟩ | ⟨unreadable, u, v, ha, hv, hr⟩
    · exact .refused hu hr
    · exact .crashed unreadable (by simpa [Op.enabled] using he) ha hv hr
  | renewDue now => exact (side renewDue_side).conseq fun _ _ _ h => .renewed h
  | endFlows ip bridge now =>
    exact (side (.discard endFlows_side)).conseq fun _ _ _ h => .endedFlows h
  | continuityRevoke ss es ip bridge now =>
    exact (side (.discard (continuityRevoke_side w))).conseq fun _ _ _ h => .revoked h
  | tickRead now => exact (side (contTickRead_side w)).conseq fun _ _ _ h => .tickRead h
  | tickBegin =>
    refine .read ?_
    cases ht : w.tick with
    | read now nowBoot => exact (side (contTickBegin_side w)).conseq fun _ _ _ h => .tickBegun h
    | _ => simp [Op.enabled, ht] at he
  | tickProbe =>
    refine .read ?_
    cases ht : w.tick with
    | asking now nowBoot tenantID siteID ids => exact (side (contTickProbe_side w)).conseq fun _ _ _ h => .tickProbed h
    | _ => simp [Op.enabled, ht] at he
  | tickApply =>
    refine .read ?_
    cases ht : w.tick with
    | answered now nowBoot tenantID siteID out => exact (side contTickApply_side).conseq fun _ _ _ h => .tickApplied ht h
    | _ => simp [Op.enabled, ht] at he
  | scope mode => exact .set (.rescoped mode)
  | restart cfg => exact restart_wp.conseq fun _ _ _ h => .restarted h
  | reboot bootID cfg =>
    refine .bind (.set (Q := fun _ t => t = { w with kern := {}, clock := 0, bootID }) rfl) fun _ t _ ht => ?_
    exact restart_wp.conseq fun _ _ _ h => .rebooted (ht ▸ h)
  | wait ms => exact .set (.waited ms)
  | traffic slot bytes => exact .set (.carried slot bytes)

lemma step_stepped (hb : Base w) (h : step w op = some w') : Stepped w op w' := by
  unfold step at h
  split at h
  next he => exact Option.some.inj h ▸ (carryOut_stepped hb he).2
  · cases h

lemma Base.outer_side {p} (h : Base w) (moves : ReflTransGen (Side p) w w') : Base w' := by
  obtain ⟨c, hmem⟩ := (sides_settled moves).mem
  obtain ⟨new, hlog, hnew⟩ := sides_log moves
  refine h.grow new (by rw [hmem]) (by rw [hmem]) (by rw [hmem]) hlog fun k e he => ?_
  rcases hnew _ he with ⟨r, t, left, -, heq⟩ | ⟨a, -, heq⟩ <;> cases heq

lemma Enforced.base (hb : Base w) (h : Enforced env now w v) : Base v := by
  cases h with
  | unchanged => exact hb.grow [_] rfl rfl rfl rfl (by simp)
  | walked start deadline hp => exact hp.rest.1.inv.base.grow [] rfl rfl rfl rfl (by simp)

lemma Restarted.base (h : Restarted cfg w w') : Base w' := by
  obtain ⟨hs, moves⟩ := h
  rename_i x
  refine Base.outer_side ⟨fun k m hm => ?_, hs.current (by simp [World.fresh]), ?_⟩ moves
  · simp [hs.provenAt, World.fresh] at hm
  · simp [hs.groupSlots, World.fresh]

lemma Stepped.base (hb : Base w) (h : Stepped w op w') : Base w' := by
  cases h with
  | arrived | rescoped | waited => exact hb.grow [] rfl rfl rfl rfl (by simp)
  | submitted _ hs =>
    cases hs with
    | refused hq => exact hb.quiet hq
    | admitted unreadable ha he hsave moves =>
      obtain ⟨calls, clock, plan, converged, -, -, -⟩ := hsave
      have hv := he.base (hb.quiet ha.quiet)
      refine Base.outer_side ?_ moves
      exact hv.grow [] rfl rfl rfl rfl (by simp)
  | refused _ hr | crashed _ _ _ _ hr | restarted hr | rebooted hr => exact hr.base
  | renewed moves | endedFlows moves | revoked moves | tickRead moves | tickBegun moves | tickProbed moves
  | tickApplied _ moves => exact hb.outer_side moves
  | carried slot bytes => exact hb.grow [] rfl rfl rfl rfl (by simp)

lemma Started.base (h : Started w) : Base w := by
  obtain ⟨cfg, hmem⟩ := h.mem
  exact ⟨by simp [hmem], by simp [hmem], by simp [hmem]⟩

lemma run_base {ops} (run : Run (ofOption step) w ops w') (h : Base w) : Base w' :=
  run.invariant (fun st hb => (step_stepped hb st).base hb) h

end

/-- A machine on which nothing fails and nothing takes time; two addresses on one subnet. -/
def Env.calm : Env where
  parseIP text := if text = ['1'] then some (.v4 0x0a000005#32) else if text = ['2'] then some (.v4 0x0a000006#32) else none
  ipText ip := if ip = .v4 0x0a000005#32 then ['1'] else ['2']
  trim := id
  fold := id
  hashDesiredState _ sessions := sessions.flatMap fun s => s.sessionID ++ [Char.ofNat (48 + s.accessEndsAt.getD 0 / 1000)]
  hashContinuity block := [Char.ofNat (48 + block.asOf / 1000)]
  nets _ := [⟨0x0a000000#32, 24⟩]
  lasts _ := 0
  outcome _ _ := .done
  reply _ := .ok
  confirm _ := some true
  isEnded _ := some false
  alloc n := some (n + 1)
  evidence _ _ _ := { state := .owned }
  retired _ _ := false
  drained _ := 0
  unreported _ _ := false
  notEntitled _ _ := false

/-- netd started on a machine a second after boot. -/
def Env.start (env : Env) (noBatch : Bool) : World :=
  { env, clock := 1000, bootID := "00000000-0000-0000-0000-000000000000".toList
    mem := { mode := ⟨true, ['t'], ['s'], ['a'], 0⟩, noBatch } }

lemma Env.started (env : Env) (noBatch : Bool) : Started (env.start noBatch) :=
  ⟨rfl, ⟨⟨⟨true, ['t'], ['s'], ['a'], 0⟩, true, noBatch⟩, rfl⟩, rfl, rfl⟩

def guest (id ip : Char) : Session :=
  { sessionID := [id], deviceID := ['d'], ip := [ip], bridge := ['b', 'r'], downKbps := 1000, upKbps := 1000
    entitled := true, mac := ['m'], entitlementID := ['e'] }

def addrOne : Addr := ⟨['b', 'r'], .v4 0x0a000005#32⟩

def planFor (gen : Int) (now : Nat) (sessions : List Session) : Envelope :=
  { contractVersion := contractVersion, tenantID := ['t'], siteID := ['s'], applianceID := ['a'], assignmentGen := 0
    planGeneration := gen, expiresAt := now + 300000, managedBridges := [['b', 'r']], sessions
    desiredStateHash := Env.calm.hashDesiredState [] sessions }

/-- The plan arrives and is submitted. -/
def planned (gen : Int) (now : Nat) (sessions : List Session) : List Op :=
  [.arrive gen, .submit (planFor gen now sessions) now]

end StayConnect.Netd
