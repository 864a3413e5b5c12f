import Mathlib.Data.List.Rotate
import StayConnect.Netd.MovesAdmission

/-!
# The moves of one bridge

`provisionBridgeBatched` works off the sessions of a bridge by kind, with a flush after each kind. Every
phase keeps `WalkInv`; a flush leaves nothing queued, which is what the admissions of the next phase need.
-/

namespace StayConnect.Netd

open Framing Prog Relation

variable {W : Walk} {o : Scope} {w : World} {S : Slot → Prop} {cs : List Cand}

/-- The scope of the work on the classes `S`: its flushes reach every session, its proofs and grants only
those of `S`. -/
def Walk.shaping (W : Walk) (S : Slot → Prop) : Scope :=
  { W.all with proves := (W.scope S).keys, grants := (W.scope S).addrs }

lemma Walk.scope_le_shaping : (W.scope S).Le (W.shaping S) :=
  { W.scope_le_all (S := S) with proves := fun _ h => h, grants := fun _ => False.elim }

lemma Walk.plain_le_shaping : W.all.plain.Le (W.shaping S) :=
  { Scope.plain_le (o := W.all) with proves := fun _ => False.elim, grants := fun _ => False.elim }

lemma Walk.renewing_le_shaping : W.all.renewing.Le (W.shaping S) :=
  { Scope.renewing_le (o := W.all) with proves := fun _ => False.elim, grants := fun _ => False.elim }

lemma Walk.shaping_le {S'} (h : ∀ s, S s → S' s) : (W.shaping S).Le (W.shaping S') :=
  have le : (W.scope S).Le (W.scope S') := W.scope_le h
  { Scope.Le.refl W.all with proves := le.keys, grants := le.addrs }

lemma Walk.checking_le_shaping : (W.checking S).Le (W.shaping S) :=
  have le : (W.scope S).plain.Le W.all := Scope.plain_le.trans W.scope_le_all
  { le with proves := fun _ => False.elim, grants := fun _ h => h }

lemma Flushed.idle {w'} (h : Flushed w) (hi : Idle w w') : Flushed w' :=
  ⟨hi.renew.trans h.renew, hi.denies.trans h.denies⟩

/-- Sessions of one kind on a bridge, with their leases granted. -/
structure Batch (W : Walk) (S : Slot → Prop) (bridge : Bytes) (w : World) (cs : List Cand) : Prop where
  has : ∀ c ∈ cs, W.Has c
  on : ∀ c ∈ cs, c.s.bridge = bridge
  inside : ∀ c ∈ cs, S c.slot
  distinct : (cs.map Cand.slot).Nodup
  granted : ∀ c ∈ cs, Granted w c

variable {bridge : Bytes}

lemma Batch.sublist {cs'} (h : Batch W S bridge w cs) (hs : cs'.Sublist cs) : Batch W S bridge w cs' where
  has c hc := h.has c (hs.subset hc)
  on c hc := h.on c (hs.subset hc)
  inside c hc := h.inside c (hs.subset hc)
  distinct := h.distinct.sublist (hs.map _)
  granted c hc := h.granted c (hs.subset hc)

lemma Batch.passes {w'} (h : Batch W S bridge w cs) (moves : ReflTransGen (PassAct W o) w w') : Batch W S bridge w' cs :=
  { h with granted := fun c hc => (h.granted c hc).passes moves }

lemma Batch.admitting (h : Batch W S bridge w cs) (hw : WalkInv W w)
    (hb : w.pass.batched = true) (hf : Flushed w) : Admitting W S cs w where
  walk := hw
  batched := hb
  chunk := ⟨h.has, h.distinct, fun c hc => hf.admissible (h.granted c hc)⟩
  inside := h.inside

lemma flatten_chunksOf_sublist {α} (n fuel : Nat) (l : List α) : (chunksOf n fuel l).flatten.Sublist l := by
  induction fuel generalizing l with
  | zero => simp [chunksOf]
  | succ fuel ih =>
    cases l with
    | nil => simp [chunksOf]
    | cons a l =>
      simp only [chunksOf, List.flatten_cons]
      conv_rhs => rw [← List.take_append_drop n (a :: l)]
      exact (ih _).append_left _

/-- What every phase of a bridge keeps and leaves behind. -/
def Phase (W : Walk) (w : World) : Prop := WalkInv W w ∧ w.pass.batched = true ∧ Flushed w

lemma admitChunks_wp {first chunks} (h : Batch W S bridge w chunks.flatten) (hw : Phase W w) :
    Wp (PassAct W (W.shaping S)) (admitChunks bridge W.view W.now first chunks) (fun _ => Phase W) w := by
  induction chunks generalizing w first with
  | nil => exact .pure hw
  | cons chunk rest ih =>
    have idle : ∀ {t u : World}, Phase W t → Idle t u → Phase W u := fun ht hi =>
      ⟨ht.1.idle hi, hi.batched.trans ht.2.1, ht.2.2.idle hi⟩
    refine .bind ((Idle.wp ctxDone_idle).mono .act) fun done t m₁ h₁ => ?_
    have ht := idle hw h₁
    split
    · exact ((Idle.wp fail_idle).mono .act).conseq fun _ _ _ hi => idle ht hi
    refine .bind ((Idle.wp pastSoftBudget_idle).mono .act) fun past u m₂ h₂ => ?_
    have hu := idle ht h₂
    have hbatch := (h.passes m₁).passes m₂
    split
    · exact .pure hu
    have head : Admitting W S chunk u :=
      (hbatch.sublist (List.sublist_append_left chunk _)).admitting hu.1 hu.2.1 hu.2.2
    have on : ∀ c ∈ chunk, c.s.bridge = bridge := fun c hc => hbatch.on c (by simp [hc])
    refine .bind (Wp.wider W.scope_le_shaping (admitChunk_wp on head)) fun _ v m₃ h₃ => ?_
    have hbv : v.pass.batched = true := (passes_batched m₃).trans hu.2.1
    refine .bind (Wp.wider W.plain_le_shaping (flushBoth_wp h₃.1 hbv)) fun _ x m₄ h₄ => ?_
    have tail := ((hbatch.passes m₃).passes m₄).sublist (List.sublist_append_right chunk rest.flatten)
    exact ih tail ⟨h₄.1.1, (passes_batched m₄).trans hbv, h₄.1.2⟩

lemma runFrom_wp {done} (h : Admitting W S cs w) :
    Wp (PassAct W (W.scope S)) (runFrom bridge W.view W.now done cs) (fun _ => WalkInv W) w := by
  induction cs generalizing w done with
  | nil => exact .pure h.walk
  | cons c rest ih =>
    have idle : ∀ {t u : World}, Admitting W S (c :: rest) t → Idle t u → Admitting W S (c :: rest) u := fun ht hi =>
      ⟨ht.walk.idle hi, hi.batched.trans ht.batched, ht.chunk.moves (o := .bare True) id (.single (.idle hi)), ht.inside⟩
    refine .bind ((Idle.wp ctxDone_idle).mono .act) fun out t _ h₁ => ?_
    have ht := idle h h₁
    split
    · exact .bind (Idle.walk fail_idle ht.walk) fun _ _ _ hu => .pure hu.2
    refine .bind ((Idle.wp pastSoftBudget_idle).mono .act) fun past u _ h₂ => ?_
    have hu := idle ht h₂
    split
    · exact .pure hu.walk
    have le : (W.scope (· = c.slot)).Le (W.scope S) := W.scope_le fun s hs => hs ▸ hu.inside c (by simp)
    have hc := hu.chunk.has c (by simp)
    refine .bind (Wp.wider le (Wp.pass (tail_wp hc hu.walk (hu.chunk.ready c (by simp))))) fun _ v _ hv => ?_
    refine ih ⟨hv.1.1, (moves_batched hv.1.2).trans hu.batched, ?_, fun d hd => hu.inside d (by simp [hd])⟩
    refine ⟨fun d hd => hu.chunk.has d (by simp [hd]), (List.nodup_cons.mp hu.chunk.distinct).2, fun d hd => ?_⟩
    refine (hu.chunk.ready d (by simp [hd])).others (hu.chunk.has d (by simp [hd])) (fun heq => ?_)
      (W.scope_le fun _ h => h) hv.1.2
    exact (List.nodup_cons.mp hu.chunk.distinct).1 (heq ▸ List.mem_map_of_mem hd)

lemma runIndividual_wp (h : Admitting W S cs w) :
    Wp (PassAct W (W.scope S)) (runIndividual bridge cs W.view W.now) (fun _ => WalkInv W) w := by
  unfold runIndividual
  split
  · exact .pure h.walk
  refine .read (.bind (Wp.stage h (prefetchActivations_steps w)) fun _ t _ ht => .read ?_)
  have rotated : ∀ n, Admitting W S (cs.rotate n) t := fun n =>
    { ht.2 with
      chunk :=
        { has := fun c hc => ht.2.chunk.has c (List.mem_rotate.mp hc)
          distinct := by rw [List.map_rotate, List.nodup_rotate]; exact ht.2.chunk.distinct
          ready := fun c hc => ht.2.chunk.ready c (List.mem_rotate.mp hc) }
      inside := fun c hc => ht.2.inside c (List.mem_rotate.mp hc) }
  refine .bind (runFrom_wp (rotated _)) fun done u _ hu => ?_
  exact .change (.act (.idle .aside)) (hu.idle .aside)

/-- The scope of a plain read that called a session active. -/
def Scope.answering (once : Prop) (k : Key) : Scope := { Scope.bare once with proves := (· = k) }

lemma Walk.Has.answering_le {c} (hc : W.Has c) : (Scope.answering W.once c.key).Le (W.scope (· = c.slot)) := by
  refine ⟨fun _ => False.elim, fun _ => False.elim, fun _ => False.elim, False.elim, False.elim, False.elim, ?_,
    False.elim, False.elim, fun _ => False.elim, id⟩
  rintro k rfl
  exact ⟨c.slot, _, rfl, hc, rfl⟩

lemma reproveOne_wp {c answer nowBoot} (hc : W.Has c) (h : WalkInv W w) (ha : Admissible W c w) :
    Wp (Act (W.scope (· = c.slot))) (do
      if answer = some true then noteAnswered c.key (((← get).mem.epochs c.key).getD 0) nowBoot
      else provisionTail c W.view W.now) (fun _ => WalkInv W) w := by
  split
  · refine .read ((Wp.widen hc.answering_le (noteAnswered_wp rfl)).conseq fun _ t _ ht => ?_)
    exact h.aside (hc.answering_le.trans W.scope_le_all) rfl id id ht.2
  · exact tail_wp hc h ha

lemma confirmAll_wp {due : List Cand} :
    Wp (Act o) (due.mapM fun _ => confirm) (fun answers w' => Idle w w' ∧ due.length = answers.length) w := by
  refine (Wp.mapM (fun _ t => Idle w t) (fun _ _ => True) (fun c _ t ht => ?_) (Idle.refl w)).conseq
    fun _ _ _ hu => ⟨hu.2, hu.1.length_eq⟩
  exact (Idle.wp confirm_idle).conseq fun _ _ _ hi => ⟨trivial, ht.trans hi⟩

lemma reproveSteady_wp (h : Batch W S bridge w cs) (hw : Phase W w) :
    Wp (PassAct W (W.shaping S)) (reproveSteady cs W.view W.now) (fun _ => WalkInv W) w := by
  refine .bind ((Idle.wp pastSoftBudget_idle).mono .act) fun past t m₁ h₁ => ?_
  split
  · exact .pure (hw.1.idle h₁)
  refine .bind ((Idle.wp query_idle).mono .act) fun nowBoot u m₂ h₂ => ?_
  have hu := h₁.trans h₂
  match nowBoot with
  | none => exact .pure (hw.1.idle hu)
  | some nowBoot =>
    refine .read ?_
    dsimp only
    set due := cs.filter fun c => !u.mem.recentlyProven c.key ((u.mem.epochs c.key).getD 0) nowBoot
    refine .bind (confirmAll_wp.mono .act) fun answers v m₃ h₃ => ?_
    have hv := hu.trans h₃.1
    have hbatch : Batch W S bridge v due :=
      (((h.passes m₁).passes m₂).passes m₃).sublist List.filter_sublist
    have mem : ∀ b ∈ due.zip answers, b.1 ∈ due := fun b hb => (List.of_mem_zip hb).1
    refine Wp.each Prod.fst (fun b => Admissible W b.1) (o := fun b => W.scope (· = b.1.slot)) ?_
      (fun b hb => (W.scope_le fun s hs => hs ▸ hbatch.inside _ (mem b hb)).trans W.scope_le_shaping)
      (fun b hb x hx hp => reproveOne_wp (hbatch.has _ (mem b hb)) hx hp) (fun b _ b' hb' hne x x' moves hp => ?_)
      (hw.1.idle hv) fun b hb => (hw.2.2.idle hv).admissible (hbatch.granted _ (mem b hb))
    · have := hbatch.distinct
      rw [← List.map_fst_zip h₃.2.le, List.map_map] at this
      exact this
    · exact hp.others (hbatch.has _ (mem b' hb')) hne (W.scope_le fun _ h => h) moves

def picked (work : List (WorkKind × Cand)) (kind : WorkKind) : List Cand := (work.filter (·.1 = kind)).map (·.2)

section
variable {bridge : Bytes} {l : List (Nat × Wanted)} {work : List (WorkKind × Cand)} {kind kind' : WorkKind}

lemma mem_picked {c} : c ∈ picked work kind ↔ (kind, c) ∈ work := by
  simp [picked]

lemma Work.batch (h : Work W w work) (inside : ∀ q ∈ work, slotsOf bridge l q.2.slot) :
    Batch W (· ∈ (picked work kind).map Cand.slot) bridge w (picked work kind) where
  has c hc := h.has _ (mem_picked.mp hc)
  on c hc := by
    obtain ⟨p, -, hp⟩ := List.mem_map.mp (inside _ (mem_picked.mp hc))
    exact (Slot.mk.inj hp).1.symm
  inside c hc := List.mem_map_of_mem hc
  distinct := by
    have sub : ((picked work kind).map Cand.slot).Sublist (work.map fun q => q.2.slot) := by
      rw [picked, List.map_map]
      exact List.filter_sublist.map _
    exact h.distinct.sublist sub
  granted c hc := h.granted _ (mem_picked.mp hc)

lemma Work.apart (h : Work W w work) (hne : kind ≠ kind') {c} (hc : c ∈ picked work kind) :
    c.slot ∉ (picked work kind').map Cand.slot := by
  intro hmem
  obtain ⟨c', hc', heq⟩ := List.mem_map.mp hmem
  have := List.inj_on_of_nodup_map h.distinct (mem_picked.mp hc) (mem_picked.mp hc') heq.symm
  exact hne (Prod.mk.inj this).1

/-- One batched bridge: whatever was noted or seen stays kept, and nothing is left queued. -/
lemma provisionBridgeBatched_wp (hl : Listing W bridge l) (hw : Phase W w) (hu : ∀ p ∈ l, Ungranted w p.2.addr) :
    Wp (PassAct W (W.shaping (slotsOf bridge l))) (provisionBridgeBatched bridge l W.view W.now) (fun _ => Phase W) w := by
  refine .bind (Wp.wider W.checking_le_shaping (precheckAll_wp hl hw.1 hu)) fun work t m₁ h₁ => ?_
  obtain ⟨⟨hwt, hwork, inside⟩, m₁'⟩ := h₁
  have inside' : ∀ {k : WorkKind} (s : Slot), s ∈ (picked work k).map Cand.slot → slotsOf bridge l s := by
    intro k s hs
    obtain ⟨c, hc, rfl⟩ := List.mem_map.mp hs
    exact inside _ (mem_picked.mp hc)
  refine .bind (Wp.wider W.plain_le_shaping (flushDenies_wp hwt)) fun _ u m₂ h₂ => ?_
  obtain ⟨⟨hwu, hdenies, hrenew⟩, m₂'⟩ := h₂
  have hbu : u.pass.batched = true := by rw [passes_batched m₂, passes_batched m₁, hw.2.1]
  have hfu : Flushed u := ⟨hrenew.trans (keep (S := fun t => t.pass.renew = ∅) (fun act h => act.keep_unqueued id h) m₁' hw.2.2.renew), hdenies⟩
  refine .bind ((Idle.wp query_idle).mono .act) fun nowBoot v m₃ h₃ => ?_
  have steady : Batch W (· ∈ (picked work .steady).map Cand.slot) bridge v (picked work .steady) :=
    ((hwork.batch inside).passes m₂).passes m₃
  have renewable : ∀ c ∈ picked work .steady, Renewable W c v := fun c hc =>
    ⟨steady.granted c hc, fun _ => (Act.idle (o := .bare True) h₃).keep_tidy id
      (passes_tidy m₂' id (hwork.tidy _ (mem_picked.mp hc) rfl))⟩
  have le₄ : (W.scope (· ∈ (picked work .steady).map Cand.slot)).renewing.Le (W.shaping (slotsOf bridge l)) :=
    (Scope.renewing_le.trans W.scope_le_shaping).trans (W.shaping_le inside')
  refine .bind (Wp.wider le₄ (steadyLeases_wp steady.has steady.distinct (hwu.idle h₃) renewable)) fun _ x m₄ h₄ => ?_
  have hbx : x.pass.batched = true := by rw [passes_batched m₄, h₃.batched, hbu]
  refine .bind (Wp.wider W.plain_le_shaping (flushBoth_wp h₄.1 hbx)) fun _ y m₅ h₅ => ?_
  have hby : y.pass.batched = true := (passes_batched m₅).trans hbx
  have moved := ((m₂.trans m₃).trans m₄).trans m₅
  have fresh : Batch W (· ∈ (picked work .fresh).map Cand.slot) bridge y (picked work .fresh) :=
    (hwork.batch inside).passes moved
  refine .bind (Wp.wider (W.shaping_le inside') (admitChunks_wp (fresh.sublist (flatten_chunksOf_sublist _ _ _)) ⟨h₅.1.1, hby, h₅.1.2⟩)) fun _ z m₆ h₆ => ?_
  have le₇ : (W.scope (· ∈ (picked work .individual).map Cand.slot)).Le (W.shaping (slotsOf bridge l)) :=
    W.scope_le_shaping.trans (W.shaping_le inside')
  have indiv : Admitting W (· ∈ (picked work .individual).map Cand.slot) (picked work .individual) z :=
    ((hwork.batch inside).passes (moved.trans m₆)).admitting h₆.1.1 h₆.1.2.1 h₆.1.2.2
  refine .bind (Wp.wider le₇ (runIndividual_wp indiv)) fun _ z' m₇ h₇ => ?_
  have hbz' : z'.pass.batched = true := (passes_batched m₇).trans h₆.1.2.1
  -- New and individually handled sessions are other sessions than the unchanged ones.
  have renewable' : ∀ c ∈ picked work .steady, Renewable W c z' := by
    intro c hc
    have outside : ∀ {k : WorkKind}, .steady ≠ k → W.once →
        ¬ (W.scope (· ∈ (picked work k).map Cand.slot)).keys c.key :=
      fun hne ho => W.outside_key ho (steady.has c hc) (hwork.apart hne hc)
    exact ((((renewable c hc).passes (fun _ => id) h₄.2).passes (fun _ => id) h₅.2).passes
      (fun ho => outside (by simp) ho) h₆.2).passes (fun ho => outside (by simp) ho) h₇.2
  refine .bind (Wp.wider W.renewing_le_shaping (renewAgain_wp steady.has steady.distinct h₇.1 hbz' renewable'))
    fun _ z₈ m₈ h₈ => ?_
  have hb₈ : z₈.pass.batched = true := (passes_batched m₈).trans hbz'
  refine .bind (Wp.wider W.plain_le_shaping (flushBoth_wp h₈.1 hb₈)) fun _ z₉ m₉ h₉ => ?_
  have hb₉ : z₉.pass.batched = true := (passes_batched m₉).trans hb₈
  have phase₉ : Phase W z₉ := ⟨h₉.1.1, hb₉, h₉.1.2⟩
  split
  · exact .pure phase₉
  refine .bind ((Idle.wp ctxDone_idle).mono .act) fun done a m₁₀ h₁₀ =>
    .bind ((Idle.wp budgetBelow_idle).mono .act) fun below b m₁₁ h₁₁ => ?_
  have hi := h₁₀.trans h₁₁
  have phase : Phase W b := ⟨phase₉.1.idle hi, hi.batched.trans hb₉, phase₉.2.2.idle hi⟩
  split
  · exact .pure phase
  have again : Batch W (· ∈ (picked work .steady).map Cand.slot) bridge b (picked work .steady) :=
    steady.passes (((((((m₄.trans m₅).trans m₆).trans m₇).trans m₈).trans m₉).trans m₁₀).trans m₁₁)
  refine .bind (Wp.wider (W.shaping_le inside') (reproveSteady_wp again phase)) fun _ c m₁₂ h₁₂ => ?_
  have hbc : c.pass.batched = true := (passes_batched m₁₂).trans phase.2.1
  exact (Wp.wider W.plain_le_shaping (flushBoth_wp h₁₂.1 hbc)).conseq fun _ d m₁₃ h₁₃ =>
    ⟨h₁₃.1.1, (passes_batched m₁₃).trans hbc, h₁₃.1.2⟩

end

end StayConnect.Netd
