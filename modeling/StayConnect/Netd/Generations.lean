import StayConnect.Netd.Revocation

/-!
# Plan generations

netd puts a plan in force only after comparing its generation with that of the last one, which it remembers
or, after a start, reads from the file. The generations put in force are therefore ordered (`Ordered`) as
long as every start finds the record of the last plan: a record that was not saved before a start, or that
cannot be read after it, leaves nothing to compare with.
-/

namespace StayConnect.Netd

open Framing Prog Relation Transition

/-- Each plan on the record is no older than those before it, and one of the same generation is the same. -/
def Ordered : List Event → Prop
  | [] => True
  | .enforced g h :: before => (∀ g' h', .enforced g' h' ∈ before → g' ≤ g ∧ (g' = g → h' = h)) ∧ Ordered before
  | _ :: before => Ordered before

def NoPlan (new : List Event) : Prop := ∀ g h, .enforced g h ∉ new

/-- The plans put in force are ordered, and the record is of the last of them. -/
structure Monotone (w : World) : Prop where
  ordered : Ordered w.log
  covered : ∀ g h, .enforced g h ∈ w.log →
    ∃ acc, w.record = some acc ∧ g ≤ acc.generation ∧ (g = acc.generation → h = acc.hash)

section
variable {p : Powers} {w w' v : World} {env : Envelope} {now : Nat} {new log : List Event}

lemma Ordered.append (h : Ordered log) (hn : NoPlan new) : Ordered (new ++ log) := by
  induction new with
  | nil => exact h
  | cons e rest ih =>
    have := ih fun g h hmem => hn g h (by simp [hmem])
    cases e with
    | enforced g h => exact absurd (by simp) (hn g h)
    | _ => exact this

lemma Ordered.le {after between before g g' h h'}
    (ho : Ordered (after ++ .enforced g h :: between ++ .enforced g' h' :: before)) : g' ≤ g ∧ (g' = g → h' = h) := by
  induction after with
  | nil => exact ho.1 g' h' (by simp)
  | cons e rest ih =>
    cases e with
    | enforced => exact ih ho.2
    | _ => exact ih ho

lemma NoPlan.append {new'} (h : NoPlan new) (h' : NoPlan new') : NoPlan (new ++ new') :=
  fun g hash hmem => (List.mem_append.mp hmem).elim (h g hash) (h' g hash)

lemma sides_noPlan (moves : ReflTransGen (Side p) w w') : ∃ new, w'.log = new ++ w.log ∧ NoPlan new := by
  obtain ⟨new, hlog, hnew⟩ := sides_log moves
  refine ⟨new, hlog, fun g h hmem => ?_⟩
  rcases hnew _ hmem with ⟨r, t, left, -, he⟩ | ⟨a, -, he⟩ <;> cases he

lemma sides_record (moves : ReflTransGen (Side p) w w') : w'.record = w.record := by
  have settled := sides_settled moves
  obtain ⟨c, hc⟩ := settled.mem
  simp [World.record, hc, settled.plan]

lemma Restarted.record {cfg} (h : Restarted cfg w w') : w'.record = w.disk.plan ∧ ∃ new, w'.log = new ++ w.log ∧ NoPlan new := by
  cases h with
  | mk hx moves =>
    constructor
    · rw [sides_record moves]
      simp [World.record, hx.lastAccepted, hx.disk, World.fresh]
    · obtain ⟨new, hlog, hnew⟩ := hx.log
      obtain ⟨new', hlog', hplan⟩ := sides_noPlan moves
      refine ⟨new' ++ new, by rw [hlog', hlog, List.append_assoc]; rfl, hplan.append fun g hash hmem => ?_⟩
      obtain ⟨k, n, he⟩ := hnew _ hmem
      cases he

lemma Enforced.plan (h : Enforced env now w w') : w'.mem.lastAccepted = some (env.accepted now) ∧
    ∃ new, w'.log = new ++ .enforced env.planGeneration env.desiredStateHash :: w.log ∧ NoPlan new := by
  cases h with
  | unchanged => exact ⟨rfl, [], rfl, by simp [NoPlan]⟩
  | @walked v w₀ t W start deadline hp =>
    refine ⟨rfl, v.events ++ [.began], by rw [List.append_assoc]; exact hp.record.1, ?_⟩
    refine NoPlan.append (fun g hash hmem => ?_) (by simp [NoPlan])
    rcases hp.record.2 _ hmem with he | he | ⟨_, _, _, _, _, he⟩
    · exact he
    · exact he
    · cases he

lemma Monotone.grow (h : Monotone w) (hlog : w'.log = new ++ w.log) (hn : NoPlan new) (hr : w'.record = w.record) : Monotone w' where
  ordered := by
    rw [hlog]
    exact h.ordered.append hn
  covered g hash hmem := by
    rw [hlog, List.mem_append] at hmem
    rw [hr]
    exact h.covered g hash (hmem.resolve_left (hn g hash))

lemma Monotone.accept (h : Monotone w) (hlog : w'.log = new ++ .enforced env.planGeneration env.desiredStateHash :: w.log)
    (hn : NoPlan new) (hr : w'.record = some (env.accepted now)) (hlast : checkLast env w.record = .ok ()) : Monotone w' := by
  have newest : ∀ g hash, .enforced g hash ∈ w.log →
      g ≤ env.planGeneration ∧ (g = env.planGeneration → hash = env.desiredStateHash) := by
    intro g hash hmem
    obtain ⟨acc, hacc, hle, heq⟩ := h.covered g hash hmem
    simp only [hacc, checkLast] at hlast
    split at hlast
    · cases hlast
    next hge =>
      split at hlast
      · cases hlast
      rename_i hsame
      simp only [Bool.and_eq_true, decide_eq_true_eq, not_and, not_not] at hsame
      refine ⟨by omega, fun hg => ?_⟩
      rw [heq (by omega), hsame (by omega)]
  refine ⟨?_, fun g hash hmem => ⟨_, hr, ?_⟩⟩
  · rw [hlog]
    exact Ordered.append ⟨newest, h.ordered⟩ hn
  · rw [hlog, List.mem_append, List.mem_cons] at hmem
    rcases hmem.resolve_left (hn g hash) with he | hmem
    · obtain ⟨rfl, rfl⟩ := Event.enforced.inj he
      exact ⟨Int.le_refl _, fun _ => rfl⟩
    · exact newest g hash hmem

/-- A step that loses no record: a start finds the last plan saved, no plan is put in force between its
record and a crash, and a plan is put in force only when the record could be read. -/
structure Recorded (w : World) (op : Op) (w' : World) : Prop where
  stepped : step w op = some w'
  saved : op.starts → w.mem.lastAccepted.isSome → w.disk.plan = w.mem.lastAccepted
  whole : ∀ env now cfg, op = .crash env now cfg → ¬ Enforces w w'
  readable : ∀ env now, op = .submit env now → Enforces w w' → (lastPlan.run w).1.isSome

lemma Recorded.start {op} (h : Recorded w op w') (hop : op.starts) : w.disk.plan = w.record := by
  unfold World.record
  cases hlast : w.mem.lastAccepted with
  | none => rfl
  | some acc => rw [h.saved hop (by simp [hlast]), hlast]; rfl

lemma Admitted.compared {u unreadable} (h : Admitted env w u unreadable)
    (hread : (lastPlan.run w).1.isSome) : checkLast env w.record = .ok () := by
  have hlast := h.last
  rcases (lastPlan_wp (w := w)).2.2 with hnone | hsome
  · simp [hnone] at hread
  · simpa [hsome] using hlast

lemma Recorded.monotone {op} (h : Recorded w op w') (hb : Base w) (hm : Monotone w) : Monotone w' := by
  have start : ∀ {cfg : Config} {u : World}, u.log = w.log → u.disk.plan = w.record → Restarted cfg u w' → Monotone w' := by
    intro cfg u hlog hplan hx
    obtain ⟨hr, new, hnew, hn⟩ := hx.record
    exact hm.grow (by rw [hnew, hlog]) hn (hr.trans hplan)
  have side : ∀ {p : Powers}, ReflTransGen (Side p) w w' → Monotone w' := by
    intro p moves
    obtain ⟨new, hlog, hn⟩ := sides_noPlan moves
    exact hm.grow hlog hn (sides_record moves)
  have nothing : NoPlan [] := by simp [NoPlan]
  cases step_stepped hb h.stepped with
  | arrived | rescoped | waited | carried => exact hm.grow rfl nothing rfl
  | @submitted _ env now _ hs =>
    cases hs with
    | refused hq =>
      obtain ⟨calls, clock, -⟩ := hq
      exact hm.grow rfl nothing rfl
    | admitted unreadable ha he hsave moves =>
      obtain ⟨hlast, new, hlog, hn⟩ := he.plan
      have enforces := he.enforces
      have compared := ha.compared (u := _)
      obtain ⟨calls, clock, -⟩ := ha.quiet
      obtain ⟨calls', clock', plan, conv, -, -, -⟩ := hsave
      obtain ⟨new', hlog', hn'⟩ := sides_noPlan moves
      have record := sides_record moves
      have log : w'.log = (new' ++ new) ++ .enforced env.planGeneration env.desiredStateHash :: w.log := by
        rw [hlog']
        simp only [hlog, List.append_assoc]
      have current : w'.record = some (env.accepted now) := by
        rw [record]
        simp [World.record, hlast]
      exact hm.accept log (hn'.append hn) current (compared (h.readable _ _ rfl (enforces.grow hlog')))
  | refused hq hx =>
    have hplan := h.start trivial
    obtain ⟨calls, clock, -⟩ := hq
    exact start (u := { w with calls, clock }) rfl hplan hx
  | crashed unreadable _ ha he hx =>
    obtain ⟨calls, clock, -⟩ := ha.quiet
    obtain ⟨-, new, hlog, -⟩ := hx.confined (A := fun _ => True)
    exact absurd (he.enforces.grow hlog) (h.whole _ _ _ rfl)
  | restarted hx => exact start rfl (h.start trivial) hx
  | @rebooted _ bootID _ hx =>
    exact start (u := { w with kern := {}, clock := 0, bootID := bootID }) rfl (h.start trivial) hx
  | renewed moves | endedFlows moves | revoked moves | tickRead moves | tickBegun moves | tickProbed moves
  | tickApplied _ moves => exact side moves

lemma run_monotone {ops} (run : Run Recorded w ops w') (hb : Base w) (hm : Monotone w) : Monotone w' := by
  induction run with
  | nil => exact hm
  | cons st _ ih => exact ih ((step_stepped hb st.stepped).base hb) (st.monotone hb hm)

lemma Enforced.arrivedGen (h : Enforced env now w w') : w'.mem.arrivedGen = w.mem.arrivedGen := by
  cases h with
  | unchanged => rfl
  | walked start deadline hp =>
    exact (hp.begun.toOuter.trans ((moves_outer hp.cleared).trans (passes_outer hp.walked))).arrivedGen

lemma Stepped.arrivedGen {op} (h : Stepped w op w') (hop : ¬ op.starts) : w.mem.arrivedGen ≤ w'.mem.arrivedGen := by
  have side : ∀ {p : Powers} {u : World}, ReflTransGen (Side p) u w' → w'.mem.arrivedGen = u.mem.arrivedGen := by
    intro p u moves
    obtain ⟨c, hc⟩ := (sides_settled moves).mem
    rw [hc]
  cases h with
  | arrived gen => exact Int.le_max_left _ _
  | rescoped | waited | carried => exact Int.le_refl _
  | submitted _ hs =>
    cases hs with
    | refused hq =>
      obtain ⟨calls, clock, -⟩ := hq
      exact Int.le_refl _
    | admitted unreadable ha he hsave moves =>
      obtain ⟨calls, clock, -⟩ := ha.quiet
      obtain ⟨calls', clock', plan, conv, -, -, -⟩ := hsave
      exact Int.le_of_eq (((side moves).trans he.arrivedGen).symm)
  | refused | crashed | restarted | rebooted => exact absurd trivial hop
  | renewed moves | endedFlows moves | revoked moves | tickRead moves | tickBegun moves | tickProbed moves
  | tickApplied _ moves => exact Int.le_of_eq (side moves).symm

lemma run_arrivedGen {ops} (run : Run Recorded w ops w') (hb : Base w) (hops : ∀ op ∈ ops, ¬ op.starts) :
    w.mem.arrivedGen ≤ w'.mem.arrivedGen := by
  induction run with
  | nil => exact Int.le_refl _
  | cons st _ ih =>
    have stepped := step_stepped hb st.stepped
    exact (stepped.arrivedGen (hops _ (by simp))).trans
      (ih (stepped.base hb) fun op hop => hops op (by simp [hop]))

lemma Submitted.arrived (h : Submitted env now w w') (he : Enforces w w') : w.mem.arrivedGen ≤ env.planGeneration := by
  cases h with
  | refused hq =>
    obtain ⟨new, generation, hash, hlog, hmem⟩ := he
    obtain ⟨calls, clock, -⟩ := hq
    rw [List.self_eq_append_left.mp hlog] at hmem
    cases hmem
  | admitted unreadable ha => exact ha.arrived

end

/-- In every run that loses no record of the last plan, the plans put in force are ordered by generation, and
those of one generation are the same; and a submission is put in force only when no newer plan has arrived
in the life of netd it is made in. -/
theorem generations_ordered {w₀ w : World} {ops : List Op} (started : Started w₀) (run : Run Recorded w₀ ops w) :
    (∀ after between before g h g' h',
      w.log = after ++ .enforced g h :: between ++ .enforced g' h' :: before → g' ≤ g ∧ (g' = g → h' = h)) ∧
    ∀ earlier later g env now w', ops = earlier ++ .arrive g :: later → (∀ op ∈ later, ¬ op.starts) →
      step w (.submit env now) = some w' → Enforces w w' → g ≤ env.planGeneration := by
  have hm : Monotone w₀ := ⟨by rw [started.log]; trivial, by simp [started.log]⟩
  constructor
  · intro after between before g h g' h' hlog
    have ordered := (run_monotone run started.base hm).ordered
    rw [hlog] at ordered
    exact ordered.le
  · rintro earlier later g env now w' rfl hlater submitted henf
    obtain ⟨u, run₁, run₂⟩ := run.split
    have hbu := run_base (run₁.mono fun h => h.stepped) started.base
    cases run₂ with
    | @cons _ v _ _ _ arrives rest =>
      have stepped := step_stepped hbu arrives.stepped
      have hbv := stepped.base hbu
      have known : g ≤ v.mem.arrivedGen := by
        cases stepped with
        | arrived gen => exact Int.le_max_right _ _
      have hbw := run_base (rest.mono fun h => h.stepped) hbv
      cases step_stepped hbw submitted with
      | submitted _ hs => exact known.trans ((run_arrivedGen rest hbv hlater).trans (hs.arrived henf))

/-- A step of `Recorded`, by a check made before it. -/
def Op.keepsRecord (w : World) : Op → Bool
  | .restart _ | .reboot _ _ => w.mem.lastAccepted.isNone || w.disk.plan == w.mem.lastAccepted
  | .crash _ _ _ => false
  | .submit _ _ => (lastPlan.run w).1.isSome
  | _ => true

lemma Op.keepsRecord.recorded {w w' op}
    (h : ofOption (fun w op => if op.keepsRecord w then step w op else none) w op w') : Recorded w op w' := by
  unfold ofOption at h
  dsimp only at h
  split at h
  next hk =>
    refine ⟨h, fun hs hsome => ?_, ?_, ?_⟩
    · cases op with
      | restart | reboot =>
        simp only [Op.keepsRecord, Bool.or_eq_true, Option.isNone_iff_eq_none, beq_iff_eq] at hk
        exact hk.resolve_left fun hnone => by simp [hnone] at hsome
      | crash => cases hk
      | _ => exact hs.elim
    · rintro env now cfg rfl
      cases hk
    · rintro env now rfl -
      exact hk
  · cases h

/-- Plan 1, a restart, and plan 2. -/
theorem generations_ordered_across_restart : ∃ w, Run Recorded (Env.calm.start false)
      (planned 1 1000 [guest 'a' '1'] ++ [.restart .calm] ++ planned 2 1000 [guest 'a' '1']) w ∧
    .enforced 1 ['a', '0'] ∈ w.log ∧ .enforced 2 ['a', '0'] ∈ w.log ∧
    ∀ after between before g h g' h',
      w.log = after ++ .enforced g h :: between ++ .enforced g' h' :: before → g' ≤ g ∧ (g' = g → h' = h) := by
  obtain ⟨w, run, hw⟩ := exists_run (f := fun w op => if op.keepsRecord w then step w op else none)
    (s := Env.calm.start false)
    (l := planned 1 1000 [guest 'a' '1'] ++ [.restart .calm] ++ planned 2 1000 [guest 'a' '1'])
    (P := fun w => .enforced 1 ['a', '0'] ∈ w.log ∧ .enforced 2 ['a', '0'] ∈ w.log) (by decide +kernel)
  obtain ⟨hone, htwo⟩ := of_decide_eq_true hw
  have recorded := run.mono Op.keepsRecord.recorded
  exact ⟨w, recorded, hone, htwo, (generations_ordered (Env.calm.started false) recorded).1⟩

/-- A machine on which the record of the first plan is not saved. -/
def Env.unsaved : Env := { Env.calm with outcome n _ := if n = 30 then .refused else .done }

/-- The record of plan 2 is not saved; after a restart plan 1 is put in force. -/
theorem unsaved_plan_is_superseded : ∃ w w', Run (ofOption step) (Env.unsaved.start false)
      (planned 2 1000 [guest 'a' '1'] ++ [.restart .calm, .arrive 1]) w ∧
    .enforced 2 ['a', '0'] ∈ w.log ∧ .enforced 1 ['a', '0'] ∉ w.log ∧
    step w (.submit (planFor 1 1000 [guest 'a' '1']) 1000) = some w' ∧ .enforced 1 ['a', '0'] ∈ w'.log := by
  obtain ⟨w, w', run, submitted, hw⟩ := exists_last (f := step) (s := Env.unsaved.start false)
    (l := planned 2 1000 [guest 'a' '1'] ++ [.restart .calm, .arrive 1])
    (a := .submit (planFor 1 1000 [guest 'a' '1']) 1000)
    (P := fun w w' => .enforced 2 ['a', '0'] ∈ w.log ∧ .enforced 1 ['a', '0'] ∉ w.log ∧
      .enforced 1 ['a', '0'] ∈ w'.log) (by decide +kernel)
  obtain ⟨htwo, hnone, hone⟩ := of_decide_eq_true hw
  exact ⟨w, w', run, htwo, hnone, submitted, hone⟩

end StayConnect.Netd
