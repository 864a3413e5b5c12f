import Mathlib.Data.List.ReduceOption
import StayConnect.Netd.MovesBatch

/-!
# The moves of chunked admission

`admitChunk` takes a chunk of new sessions through the stages of `provisionTail` together. Up to the
proof nothing is removed and nothing noted, so `WalkInv` is untouched whatever fails on the way; the proof
and the full lease are then made one session after another.
-/

namespace StayConnect.Netd

open Framing Prog Relation

variable {W : Walk} {o : Scope} {w : World}

lemma map_reduceOption_sublist {α β γ : Type} {f : β → γ} {g : α → γ} {l bs}
    (h : List.Forall₂ (fun a b => ∀ y, b = some y → f y = g a) l bs) : (bs.reduceOption.map f).Sublist (l.map g) := by
  induction h with
  | nil => simp
  | @cons a b l bs hab _ ih =>
    cases b with
    | none => simpa [List.reduceOption_cons_of_none] using ih.cons (g a)
    | some y => simpa [List.reduceOption_cons_of_some, hab y rfl] using ih

/-- The scope covers the sessions of a chunk, with their classes. -/
structure Stages (o : Scope) (cs : List Cand) : Prop where
  key : ∀ c ∈ cs, o.keys c.key
  addr : ∀ c ∈ cs, o.addrs c.addr
  bridge : ∀ c ∈ cs, c.addr.bridge = c.s.bridge
  cls : ∀ c ∈ cs, o.HasClass c.s.bridge c.minor
  denies : o.denies

lemma Stages.sublist {cs cs'} (h : Stages o cs) (hs : cs'.Sublist cs) : Stages o cs' where
  key c hc := h.key c (hs.subset hc)
  addr c hc := h.addr c (hs.subset hc)
  bridge c hc := h.bridge c (hs.subset hc)
  cls c hc := h.cls c (hs.subset hc)
  denies := h.denies

lemma Walk.stages {S cs} (has : ∀ c ∈ cs, W.Has c) (hS : ∀ c ∈ cs, S c.slot) : Stages (W.scope S).calm cs where
  key c hc := ((has c hc).owns (hS c hc)).key
  addr c hc := ((has c hc).owns (hS c hc)).addr
  bridge c hc := ((has c hc).owns (hS c hc)).bridge
  cls c hc := ((has c hc).owns (hS c hc)).cls
  denies := trivial

/-- A stage keeps sessions of its input in their order. -/
def Keeps (cs : List Cand) (out : List (Cand × Nat)) : Prop := (out.map Prod.fst).Sublist cs

lemma stage_wp {α β : Type} {f : α → NetdM (Option β)} {l} (P : World → Prop)
    (T : α → β → Prop) (stable : ∀ {t u}, Act o t u → P t → P u)
    (body : ∀ a ∈ l, ∀ t, P t → Wp (Act o) (f a) (fun b _ => ∀ y, b = some y → T a y) t) (h : P w) :
    Wp (Act o) (l.mapM f) (fun bs _ => List.Forall₂ (fun a b => ∀ y, b = some y → T a y) l bs) w := by
  refine (Wp.mapM (fun rest t => rest <:+ l ∧ P t) (fun a b => ∀ y, b = some y → T a y)
    (fun a rest t ht => ?_) ⟨List.suffix_rfl, h⟩).conseq fun _ _ _ hu => hu.1
  refine (body a (ht.1.subset (by simp)) t ht.2).conseq fun b u moves hb => ⟨hb, ?_, keep stable moves ht.2⟩
  exact (List.suffix_cons a rest).trans ht.1

lemma admissionAllocs_wp {chunk} : Wp (Act o) (admissionAllocs chunk) (fun live _ => Keeps chunk live) w := by
  refine .bind (M := fun slots _ => chunk.length = slots.length) ?_ fun slots t _ hlen => ?_
  · refine (Wp.mapM (fun _ _ => True) (fun _ _ => True) (fun c _ t _ => .read ?_) trivial).conseq fun _ _ _ hu => hu.1.length_eq
    cases t.mem.pending c.key with
    | some e => exact .pure ⟨trivial, trivial⟩
    | none => exact (Idle.act allocEpoch_idle t).conseq fun _ _ _ _ => ⟨trivial, trivial⟩
  refine .bind (stage_wp (fun _ => True) (fun (a : Cand × Option Nat) (y : Cand × Nat) => y.1 = a.1)
    (fun _ _ => trivial) (fun a _ u _ => ?_) trivial) fun live u _ hlive => .pure ?_
  · obtain ⟨c, slot⟩ := a
    cases slot with
    | none => exact .bind failSession_wp fun _ _ _ _ => .pure (by simp)
    | some e =>
      exact .bind (.change (Q := fun _ _ => True) (.idle .aside) trivial) fun _ v _ _ =>
        .bind (endPrevious_steps v) fun _ _ _ _ => .pure fun y hy => (Option.some.inj hy) ▸ rfl
  · have := map_reduceOption_sublist (f := Prod.fst) (g := Prod.fst) hlive
    rwa [List.map_fst_zip hlen.le] at this

lemma originFailed_queued {c why} (hb : w.pass.batched = true) (h : Stages o [c]) :
    Wp (Act o) (originFailed c why) (fun _ _ => True) w := by
  have key : o.keys ⟨c.addr.bridge, c.s.sessionID⟩ := by
    rw [h.bridge c (by simp)]
    exact h.key c (by simp)
  unfold originFailed
  split
  · exact .bind (endClosed_queued hb h.denies key (h.addr c (by simp))) fun _ t _ _ => dropEnded_steps t
  · exact (failClosed_queued hb h.denies (h.addr c (by simp))).conseq fun _ _ _ _ => trivial

lemma admissionOrigins_wp {live} (hb : w.pass.batched = true) (h : Stages o (live.map Prod.fst)) :
    Wp (Act o) (admissionOrigins live) (fun reg _ => Keeps (live.map Prod.fst) reg) w := by
  have verdicts : Wp (Act o) (live.mapM fun l => do
      if l.1.s.deviceID = [] then return Except.error Cause.originNoDevice
      return originVerdict (← registerClassOrigin)) (fun vs _ => live.length = vs.length) w := by
    refine (Wp.mapM (fun _ _ => True) (fun _ _ => True) (fun l _ t _ => ?_) trivial).conseq
      fun _ _ _ hu => hu.1.length_eq
    split
    · exact .pure ⟨trivial, trivial⟩
    · exact .bind (Idle.act registerClassOrigin_idle t) fun _ _ _ _ => .pure ⟨trivial, trivial⟩
  refine .bind verdicts fun vs t moves hlen => ?_
  refine .bind (stage_wp (fun u => u.pass.batched = true)
    (fun (a : (Cand × Nat) × Except Cause Unit) (y : Cand × Nat) => y = a.1)
    (fun act hu => act.batched.trans hu) (fun a ha u hu => ?_) ((moves_batched moves).trans hb)) fun reg u _ hreg => .pure ?_
  · obtain ⟨l, v⟩ := a
    have hl : l ∈ live := (List.of_mem_zip ha).1
    cases v with
    | error why =>
      exact .bind (originFailed_queued hu (h.sublist (List.singleton_sublist.mpr (List.mem_map_of_mem hl)))) fun _ _ _ _ => .pure (by simp)
    | ok u => exact .pure fun y hy => (Option.some.inj hy) ▸ rfl
  · have := map_reduceOption_sublist (f := Prod.fst) (g := fun a => a.1.1)
      (hreg.imp fun a b hab y hy => by rw [hab y hy])
    rw [show (fun a : (Cand × Nat) × Except Cause Unit => a.1.1) = Prod.fst ∘ Prod.fst from rfl, ← List.map_map,
      List.map_fst_zip hlen.le] at this
    exact this

lemma verifyChunk_wp {bridge reg down up} (hb : w.pass.batched = true) (h : Stages o (reg.map Prod.fst)) :
    Wp (Act o) (verifyChunk bridge reg down up) (fun verified _ => Keeps (reg.map Prod.fst) verified) w := by
  refine .bind (Idle.act forwarding_idle w) fun fw t moves _ => ?_
  refine .bind (stage_wp (fun u => u.pass.batched = true) (fun (a y : Cand × Nat) => y.1 = a.1)
    (fun act hu => act.batched.trans hu) (fun l hl u hu => ?_) ((moves_batched moves).trans hb)) fun verified u _ hv =>
      .pure (map_reduceOption_sublist hv)
  split
  · exact .pure fun y hy => (Option.some.inj hy) ▸ rfl
  · exact .bind (failClosed_queued hu h.denies (h.addr l.1 (List.mem_map_of_mem hl))) fun _ _ _ _ => .pure (by simp)

lemma prefetchActivations_steps {asks} : Steps (Act o) (prefetchActivations asks) := by
  refine .forM fun a w => .bind activate_wp fun r t _ ht => ?_
  exact .change (.ahead a.1 a.2 r ht) trivial

structure Chunk (W : Walk) (w : World) (cs : List Cand) : Prop where
  has : ∀ c ∈ cs, W.Has c
  distinct : (cs.map Cand.slot).Nodup
  ready : ∀ c ∈ cs, Admissible W c w

lemma Chunk.sublist {cs cs'} (h : Chunk W w cs) (hs : cs'.Sublist cs) : Chunk W w cs' where
  has c hc := h.has c (hs.subset hc)
  distinct := h.distinct.sublist (hs.map _)
  ready c hc := h.ready c (hs.subset hc)

lemma Chunk.moves {w' cs} (h : Chunk W w cs) (hq : ¬ o.queues) (moves : ReflTransGen (Act o) w w') : Chunk W w' cs where
  has := h.has
  distinct := h.distinct
  ready c hc := ⟨(h.ready c hc).1.moves moves, fun ho => moves_noQueue moves (fun hk => hq hk.1) ((h.ready c hc).2 ho)⟩

/-- What was authorized provisionally is in the set, and belongs to the chunk. -/
structure Provisional (w : World) (verified authd : List (Cand × Nat)) : Prop where
  keeps : authd.Sublist verified
  listed : ∀ l ∈ authd, Listed w l.1.addr

lemma authorizeStage_wp (nowBoot : Nat) {verified} (ho : o.once = W.once) (h : WalkInv W w)
    (hb : w.pass.batched = true) (hs : Stages o (verified.map Prod.fst)) (hr : ¬ o.revokes) (hc : Chunk W w (verified.map Prod.fst)) :
    Wp (Act o) (authorizeStage verified nowBoot) (fun authd w' => Provisional w' verified authd) w := by
  have batched : ∀ {t u : World}, Act o t u → t.pass.batched = true → u.pass.batched = true :=
    fun act ht => act.batched.trans ht
  refine .bind (stage_wp (fun t => t.pass.batched = true) (fun (a y : Cand × Nat) => y = a) batched
    (fun l hl t ht => ?_) hb) fun begun t m₁ hbegun => ?_
  · refine .bind (Idle.act beginAttempt_idle t) fun err u moves _ => ?_
    split
    · exact .bind (failClosed_queued ((moves_batched moves).trans ht) hs.denies (hs.addr l.1 (List.mem_map_of_mem hl)))
        fun _ _ _ _ => .pure (by simp)
    · exact .pure fun y hy => (Option.some.inj hy).symm
  · have sub : begun.reduceOption.Sublist verified := by
      simpa using map_reduceOption_sublist (f := id) (g := id) hbegun
    have mem : ∀ l ∈ begun.reduceOption, l.1 ∈ verified.map Prod.fst := fun l hl => List.mem_map_of_mem (sub.subset hl)
    have requests : Requests o t (begun.reduceOption.map fun l => ⟨l.1.key, l.1.addr, provisionalOrLess l.1.lease⟩) := by
      intro r hr
      obtain ⟨l, hl, rfl⟩ := List.mem_map.mp hr
      have ready : Ready o.once t l.1 := ⟨moves_inv m₁ (ho ▸ h.inv), (hc.ready l.1 (mem l hl)).1.moves m₁⟩
      exact ⟨hs.key l.1 (mem l hl), hs.addr l.1 (mem l hl), ready.provisional (Nat.le_refl _)⟩
    refine .bind (authorizeBatch_wp requests) fun errs u m₂ hu => ?_
    have hno : t.mem.noBatch = false := by
      have := h.mode
      rw [(moves_outer m₁).noBatch]
      simpa [hb] using this
    have reported : List.Forall₂ (fun (l : Cand × Nat) err => err = false → Listed u l.1.addr) begun.reduceOption errs :=
      List.forall₂_map_left_iff.mp (hu.2 hno)
    have hbu : u.pass.batched = true := by rw [moves_batched m₂, moves_batched m₁, hb]
    refine .bind (stage_wp (fun t => t.pass.batched = true)
      (fun (a : (Cand × Nat) × Bool) (y : Cand × Nat) => (y, false) = a) batched (fun a ha v hv => ?_) hbu)
      fun authd v m₃ hauthd => .pure ?_
    · obtain ⟨l, err⟩ := a
      dsimp only
      split
      · exact .bind (failClosed_queued hv hs.denies (hs.addr l.1 (mem l (List.of_mem_zip ha).1)))
          fun _ _ _ _ => .pure (by simp)
      next herr => exact .pure fun y hy => by simp_all
    · have subzip := map_reduceOption_sublist (f := fun l => (l, false)) (g := id) hauthd
      rw [List.map_id] at subzip
      refine ⟨?_, fun l hl => ?_⟩
      · have := subzip.map Prod.fst
        rw [List.map_fst_zip reported.length_eq.le] at this
        simpa [List.map_map, Function.comp_def] using this.trans sub
      · have hzip := subzip.subset (List.mem_map_of_mem hl)
        have hlisted := (List.forall₂_iff_zip.mp reported).2 hzip rfl
        exact keep (S := fun x => Listed x l.1.addr) (fun act hx => act.listed (fun ha => hr ha.2) hx) m₃ hlisted

/-- A chunk on its way through the stages. -/
structure Admitting (W : Walk) (S : Slot → Prop) (cs : List Cand) (w : World) : Prop where
  walk : WalkInv W w
  batched : w.pass.batched = true
  chunk : Chunk W w cs
  inside : ∀ c ∈ cs, S c.slot

section
variable {S : Slot → Prop} {cs : List Cand}

lemma Admitting.sublist {cs'} (h : Admitting W S cs w) (hs : cs'.Sublist cs) : Admitting W S cs' w :=
  ⟨h.walk, h.batched, h.chunk.sublist hs, fun c hc => h.inside c (hs.subset hc)⟩

lemma Admitting.stages (h : Admitting W S cs w) : Stages (W.scope S).calm cs := W.stages h.chunk.has h.inside

lemma Wp.stage {α : Type} {m} {Q : α → World → Prop} (h : Admitting W S cs w) (hm : Wp (Act (W.scope S).calm) m Q w) :
    Wp (PassAct W (W.scope S)) m (fun r w' => Q r w' ∧ Admitting W S cs w') w := by
  have le : (W.scope S).calm.Le (W.scope S) := Scope.calm_le.trans Scope.plain_le
  refine (Wp.wider le (Wp.pass hm)).conseq fun r t _ ht => ⟨ht.1.1, ?_, ?_, ?_, h.inside⟩
  · exact h.walk.aside (le.trans W.scope_le_all) rfl id id ht.1.2
  · exact (moves_batched ht.1.2).trans h.batched
  · exact h.chunk.moves id ht.1.2

variable {live : List (Cand × Nat)} {bridge : Bytes}

lemma fallback_wp (h : Admitting W S (live.map Prod.fst) w) :
    Wp (PassAct W (W.scope S)) (fallback live W.view W.now) (fun _ => WalkInv W) w := by
  have mem : ∀ l ∈ live, l.1 ∈ live.map Prod.fst := fun l hl => List.mem_map_of_mem hl
  refine Wp.each Prod.fst (fun l => Admissible W l.1) (o := fun l => W.scope (· = l.1.slot))
    (by simpa [List.map_map, Function.comp_def] using h.chunk.distinct) (fun l hl => W.scope_le fun s hs => hs ▸ h.inside _ (mem l hl))
    (fun l hl t ht hp => tail_wp (h.chunk.has _ (mem l hl)) ht hp) (fun l _ l' hl' hne t t' moves hp => ?_)
    h.walk fun l hl => h.chunk.ready _ (mem l hl)
  exact hp.others (h.chunk.has _ (mem l' hl')) hne (W.scope_le fun _ h => h) moves

lemma failAll_wp {why} (hb : w.pass.batched = true) (h : Stages o (live.map Prod.fst)) :
    Wp (Act o) (live.forM fun l => failClosed l.1.addr l.1.s.sessionID why) (fun _ _ => True) w := by
  refine (Wp.forM (fun rest t => rest <:+ live ∧ t.pass.batched = true) (fun l rest t ht => ?_)
    ⟨List.suffix_rfl, hb⟩).conseq fun _ _ _ _ => trivial
  have hl : l.1 ∈ live.map Prod.fst := List.mem_map_of_mem (ht.1.subset (by simp))
  exact (failClosed_queued ht.2 h.denies (h.addr _ hl)).conseq fun _ _ moves _ =>
    ⟨(List.suffix_cons l rest).trans ht.1, (moves_batched moves).trans ht.2⟩

lemma authorizeChunk_wp {verified} {nowBoot : Nat} (h : Admitting W S (verified.map Prod.fst) w) :
    Wp (PassAct W (W.scope S)) (authorizeChunk verified nowBoot W.view W.now) (fun _ => WalkInv W) w := by
  have stage := authorizeStage_wp (o := (W.scope S).calm) nowBoot rfl h.walk h.batched h.stages id h.chunk
  refine .bind (Wp.stage h stage) fun authd t _ ht => ?_
  have ht' := ht.2.sublist (ht.1.keeps.map Prod.fst)
  have fetch : Wp (Act (W.scope S).calm) (prefetchActivations (authd.map fun l => (l.1.key, l.2)))
      (fun _ u => ∀ l ∈ authd, Listed u l.1.addr) t :=
    (prefetchActivations_steps t).conseq fun _ u moves _ l hl =>
      keep (S := fun x => Listed x l.1.addr) (fun act hx => act.listed (fun ha => ha.2) hx) moves (ht.1.listed l hl)
  refine .bind (Wp.stage ht' fetch) fun _ u _ hu => ?_
  have mem : ∀ l ∈ authd, l.1 ∈ authd.map Prod.fst := fun l hl => List.mem_map_of_mem hl
  refine Wp.each (fun l => { l.1 with nowBoot }) (fun l v => Admissible W l.1 v ∧ Kept v l.1.addr)
    (o := fun l => W.scope (· = l.1.slot)) ?_ (fun l hl => W.scope_le fun s hs => hs ▸ hu.2.inside _ (mem l hl))
    (fun l hl v hv hp => ?_) (fun l hl l' hl' hne v v' moves hp => ⟨?_, ?_⟩)
    hu.2.walk fun l hl => ⟨hu.2.chunk.ready _ (mem l hl), .inr (.inl (hu.1 l hl))⟩
  · simpa [List.map_map, Function.comp_def, Cand.slot] using hu.2.chunk.distinct
  · have hc : W.Has { l.1 with nowBoot } := show W.Has l.1 from hu.2.chunk.has _ (mem l hl)
    exact Wp.kept hc (W.scope_le fun _ h => h) hv
      (completeAdmission_wp (hc.owns rfl) ⟨hv.inv, hp.1.1⟩ hp.1.2 hp.2)
  · exact hp.1.others (hu.2.chunk.has _ (mem l' hl')) hne (W.scope_le fun _ h => h) moves
  · exact moves_kept moves (fun ha => W.outside_addr (hu.2.chunk.has _ (mem l' hl')) hne ha.1) hp.2

lemma buildClasses_steps (h : ∀ l ∈ live, o.HasClass bridge l.1.minor) : Steps (Act o) (buildClasses bridge live) := by
  refine .bind (Idle.act ensureBridgeInfra_idle) fun refused => ?_
  split
  · exact .pure
  · exact untilErr_steps fun l hl => addSessionClasses_steps (h l hl)

lemma addFilters_idle {reg} : Steps Idle (addFilters bridge reg) := by
  refine untilErr_steps fun l _ => .bind addFilter_idle fun refused => ?_
  split
  · exact .pure
  · exact addFilter_idle

lemma admitChunk_wp {chunk} (on : ∀ c ∈ chunk, c.s.bridge = bridge) (h : Admitting W S chunk w) :
    Wp (PassAct W (W.scope S)) (admitChunk bridge chunk W.view W.now) (fun _ => WalkInv W) w := by
  refine .bind (Wp.stage h admissionAllocs_wp) fun live t _ ht => ?_
  have ht' := ht.2.sublist ht.1
  have on' : ∀ l ∈ live, l.1.s.bridge = bridge := fun l hl => on _ (ht.1.subset (List.mem_map_of_mem hl))
  split
  · exact .pure ht'.walk
  have cls : ∀ l ∈ live, (W.scope S).calm.HasClass bridge l.1.minor := fun l hl =>
    on' l hl ▸ ht'.stages.cls _ (List.mem_map_of_mem hl)
  refine .bind (Wp.stage ht' (buildClasses_steps cls t)) fun refused u _ hu => ?_
  split
  · exact .bind (fallback_wp hu.2) fun _ _ _ hv => .pure hv
  refine .bind (Wp.stage hu.2 (Idle.act query_idle u)) fun down v _ hv =>
    .bind (Wp.stage hv.2 (Idle.act query_idle v)) fun up x _ hx => ?_
  match down, up with
  | none, _ | some _, none => exact (Wp.stage hx.2 (failAll_wp hx.2.batched hx.2.stages)).conseq fun _ _ _ hy => hy.2.walk
  | some down, some up =>
    refine .bind (Wp.stage hx.2 (admissionOrigins_wp hx.2.batched hx.2.stages)) fun reg y _ hy => ?_
    have hy' := hy.2.sublist hy.1
    split
    · exact .pure hy'.walk
    refine .bind (Wp.stage hy' (Idle.act addFilters_idle y)) fun refused z _ hz => ?_
    split
    · exact .bind (fallback_wp hz.2) fun _ _ _ hv => .pure hv
    refine .bind (Wp.stage hz.2 (verifyChunk_wp hz.2.batched hz.2.stages)) fun verified z' _ hz' => ?_
    refine .bind (Wp.stage (hz'.2.sublist hz'.1) (Idle.act query_idle z')) fun nowBoot z'' _ hz'' => ?_
    match nowBoot with
    | none =>
      exact (Wp.stage hz''.2 (failAll_wp hz''.2.batched hz''.2.stages)).conseq fun _ _ _ hv => hv.2.walk
    | some nowBoot => exact authorizeChunk_wp hz''.2

end

end StayConnect.Netd
