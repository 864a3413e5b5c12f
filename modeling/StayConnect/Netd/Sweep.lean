import StayConnect.Netd.MovesPass
import StayConnect.Netd.Side

/-!
# The sweeps

Before anything is shaped, the elements and the guest classes the plan does not claim are removed. The
snapshot the walk judges leases by is taken at the start of the sweep of the set, so what it shows of the
desired addresses is still there afterwards (`Watched`). When every call is carried out (`Reliable`),
nothing unclaimed is left (`Swept`).
-/

namespace StayConnect.Netd

open Framing Prog Relation

variable {α : Type} {o : Scope} {w w' : World} {once : Prop} {desired : Table Slot Wanted} {bridge : Bytes} {a : Addr} {slot : Slot}

/-- Every call from now on is carried out. -/
def World.Reliable (w : World) : Prop := ∀ n i, w.calls ≤ n → w.env.outcome n i = .done

lemma World.Reliable.outer (h : w.Reliable) (ho : Outer w w') : w'.Reliable := by
  intro n i hn
  rw [ho.env]
  exact h n i (ho.asked.trans hn)

lemma World.Reliable.moves (h : w.Reliable) (moves : ReflTransGen (Act o) w w') : w'.Reliable := h.outer (moves_outer moves)

def World.called (w : World) : World := { w with calls := w.calls + 1, clock := w.clock + w.env.lasts w.calls }

lemma perform_run {f} (h : w.Reliable) : (perform f).run w = (false, f w.called) := by
  change (land (w.env.outcome w.calls 0) f).run w.called = _
  rw [h w.calls 0 (Nat.le_refl _)]
  rfl

lemma query_run {f : World → α} (h : w.Reliable) : (query f).run w = (some (f w.called), w.called) := by
  change StateT.run (if (w.env.outcome w.calls 0).err then _ else _) w.called = _
  rw [h w.calls 0 (Nat.le_refl _)]
  rfl

lemma called_idle (w : World) : Idle w w.called :=
  { Idle.refl w with asked := Nat.le_add_right _ _, clock := Nat.le_add_right _ _ }

lemma call_done (h : w.Reliable) : Wp Idle call (fun n t => t = w.called ∧ ∀ i, t.env.outcome n i = .done) w :=
  ⟨.single (called_idle w), rfl, fun i => h w.calls i (Nat.le_refl _)⟩

lemma land_done {R f} (move : R w (f w)) : Wp R (land .done f) (fun err t => err = false ∧ t = f w) w := ⟨.single move, rfl, rfl⟩

lemma snapshotGate_wp : Wp (Act o) snapshotGate (fun v w' => Idle w w' ∧ Snapshot v w') w :=
  ⟨(Idle.act snapshotGate_idle w).1, snapshotGate_idle.run Idle.refl Idle.trans w, snapshotGate_quiet.2.2⟩

/-- The scope of the stray removal. -/
def Scope.straying (nets : Bytes → List Subnet) (desired : Table Slot Wanted) (once : Prop) : Scope :=
  { Scope.bare once with addrs := fun a => isStray nets desired a = true, revokes := True }

variable {nets : Bytes → List Subnet} {v : GateView} {minor : Nat}

/-- Addresses the snapshot shows are kept, apart from strays. -/
def Watched (nets : Bytes → List Subnet) (desired : Table Slot Wanted) (v : GateView) (w : World) : Prop :=
  ∀ a, isStray nets desired a = false → Seen v a w

lemma Watched.delete {a} (h : Watched nets desired v w) : Watched nets desired (v.delete a) w := by
  intro b hb hv
  refine h b hb fun hnone => hv ?_
  rcases eq_or_ne b a with rfl | hne
  · cases hk : v.byKey with
    | none => simp [GateView.lookup, hk] at hnone
    | some t => simp [GateView.lookup, GateView.delete, hk]
  · unfold GateView.lookup at hnone
    unfold GateView.lookup GateView.delete
    cases hk : v.byKey with
    | none => simp [hk] at hnone
    | some t => simpa [hk, AList.lookup_erase_ne hne] using hnone

lemma Watched.moves {w'} (h : Watched nets desired v w)
    (moves : ReflTransGen (Act (.straying nets desired once)) w w') : Watched nets desired v w' :=
  fun a ha hv => moves_kept moves (fun hin => Bool.noConfusion (ha.symm.trans hin.1)) (h a ha hv)

lemma strayRemoved_steps {err} : Steps (Act o) (strayRemoved v a err) := by
  unfold strayRemoved
  split
  · exact .bind (Idle.act fail_idle) fun _ => .pure
  · exact .bind (.change fun _ => .idle .aside) fun _ => .pure

lemma strayRemoved_wp {a err} (h : Watched nets desired v w) :
    Wp (Act (.straying nets desired once)) (strayRemoved v a err) (Watched nets desired) w := by
  unfold strayRemoved
  split
  · exact .bind (Idle.act fail_idle w) fun _ t moves _ => .pure (h.moves moves)
  · exact .bind (.change (Q := fun _ t => Idle w t) (.idle .aside) .aside) fun _ t moves _ => .pure (h.moves moves).delete

lemma sweepAuthorizations_wp (hn : w.env.nets = nets) :
    Wp (Act (.straying nets desired once)) (sweepAuthorizations desired) (Watched nets desired) w := by
  refine .bind snapshotGate_wp fun v t _ h₁ => .read ?_
  have watched : ∀ els, v.byKey = some els → Watched nets desired v t := by
    intro els hels a _ hv
    obtain ⟨x, hx⟩ : ∃ x, els.lookup a = some x := by
      by_contra hnone
      refine hv ?_
      have : els.lookup a = none := by simpa [Option.eq_none_iff_forall_ne_some] using hnone
      simp [GateView.lookup, hels, this]
    obtain ⟨r, hr, -⟩ := h₁.2.present els a x hels hx
    exact .inr (.inl (Listed.of_left (by simp [hr])))
  rw [h₁.1.env, hn]
  cases hels : v.byKey with
  | none =>
    exact .bind fail_wp fun _ u _ hu => .pure fun a _ _ => .inl (.inl hu)
  | some els =>
    have strays : ∀ a ∈ els.keys.filter (isStray nets desired), isStray nets desired a = true :=
      fun a ha => (List.mem_filter.mp ha).2
    dsimp only
    split
    · refine .bind (denyBatch_wp trivial strays) fun errs u moves _ => ?_
      exact Wp.foldlM (fun _ v u => Watched nets desired v u) (fun v e _ u hu => strayRemoved_wp hu)
        ((watched els hels).moves moves)
    · refine Wp.foldlM (fun rest v u => (∀ a ∈ rest, isStray nets desired a = true) ∧ Watched nets desired v u)
        (fun v a rest u hu => ?_) ⟨strays, watched els hels⟩ |>.conseq fun _ _ _ hu => hu.2
      refine .bind (denyAccess_steps trivial (hu.1 a (by simp)) u) fun err x moves _ => ?_
      exact (strayRemoved_wp (hu.2.moves moves)).conseq fun _ _ _ hx => ⟨fun b hb => hu.1 b (by simp [hb]), hx⟩

lemma left_erase (w : World) (a : Addr) : (eraseAuth a w).left a = none := by simp [World.left, Kernel.left, eraseAuth]

lemma isStray_v4 (h : isStray nets desired a = true) : ∃ ip, a.ip = .v4 ip := by
  cases hip : a.ip with
  | v4 ip => exact ⟨ip, rfl⟩
  | v6 ip => simp [isStray, minorFor, hip] at h

lemma straying_left_none (moves : ReflTransGen (Act (.straying nets desired once)) w w') (h : w.left a = none) : w'.left a = none :=
  moves_left_none moves (fun _ hk => hk.elim) h

section
variable {nets : Bytes → List Subnet}

lemma denyAccess_done (h : w.Reliable) (ha : isStray nets desired a = true) :
    Wp (Act (.straying nets desired once)) (denyAccess a) (fun _ t => t.left a = none) w := by
  have removed : Wp (Act (.straying nets desired once)) (revoke a) (fun _ t => t.left a = none) w := by
    refine ⟨(revoke_steps trivial ha w).1, ?_⟩
    unfold revoke
    rw [perform_run h]
    exact left_erase _ a
  refine .bind removed fun err t _ ht => ?_
  split
  · exact .pure ht
  · refine .bind (Idle.act query_idle t) fun still u moves _ => ?_
    have hu := straying_left_none moves ht
    cases still <;> exact .pure hu

lemma revokeItems_done {n i l} (h : ∀ i, w.env.outcome n i = .done) (hl : ∀ a ∈ l, isStray nets desired a = true) :
    Wp (Act (.straying nets desired once)) (revokeItems n i l) (fun _ t => ∀ a ∈ l, t.left a = none) w := by
  induction l generalizing i w with
  | nil => exact .pure (by simp)
  | cons a rest ih =>
    obtain ⟨ip, hip⟩ := isStray_v4 (hl a (by simp))
    have removed : Wp (Act (.straying nets desired once)) (revokeItem n i a) (fun _ t => t.left a = none) w := by
      refine .bind (M := fun _ t => t.left a = none) ?_ fun err t _ ht => .read (.pure ht)
      rw [hip]
      refine .bind (M := fun out t => out = .done ∧ t = w) (.read (.pure ⟨h i, rfl⟩)) fun out t _ ht => ?_
      obtain ⟨rfl, rfl⟩ := ht
      refine (land_done (.revoked a trivial (hl a (by simp)))).conseq fun err u _ hu => ?_
      rw [hu.2]
      exact left_erase t a
    refine .bind removed fun err t m₁ ht => .bind (ih (fun i => ?_) fun b hb => hl b (by simp [hb])) fun errs u m₂ hu => .pure ?_
    · rw [(moves_outer m₁).env]
      exact h i
    · intro b hb
      rcases List.mem_cons.mp hb with rfl | hb
      · exact straying_left_none m₂ ht
      · exact hu b hb

lemma denyBatch_done {l} (h : w.Reliable) (hl : ∀ a ∈ l, isStray nets desired a = true) :
    Wp (Act (.straying nets desired once)) (denyBatch l) (fun _ t => ∀ a ∈ l, t.left a = none) w := by
  unfold denyBatch
  split
  next hnil => exact .pure (by simp [hnil])
  · refine .read ?_
    split
    · refine (Wp.collect (fun rest _ t => t.Reliable ∧ (∀ a ∈ rest, isStray nets desired a = true) ∧
        ∀ a ∈ l, a ∉ rest → t.left a = none) (fun b rest _ t ht => ?_) ⟨h, hl, fun a ha hn => absurd ha hn⟩).conseq
        fun _ _ _ ht a ha => ht.2.2 a ha (by simp)
      refine (denyAccess_done ht.1 (ht.2.1 b (by simp))).conseq fun _ u moves hu => ⟨ht.1.moves moves, fun a ha => ht.2.1 a (by simp [ha]), fun a ha hn => ?_⟩
      rcases eq_or_ne a b with rfl | hne
      · exact hu
      · exact straying_left_none moves (ht.2.2 a ha (by simp [hne, hn]))
    · exact .bind ((call_done h).mono .idle) fun n t _ ht => revokeItems_done ht.2 hl

lemma snapshotGate_done (h : w.Reliable) : Wp Idle snapshotGate (fun v _ => v.byKey.isSome) w := by
  have listed : Wp Idle gateList (fun els _ => els.isSome) w := by
    refine .bind (call_done h) fun n t _ ht => ?_
    refine .bind (M := fun out _ => out = .done) (.read (.pure (ht.2 0))) fun out u _ hu => ?_
    subst hu
    exact .read (.pure rfl)
  refine .bind listed fun els t _ ht => ?_
  obtain ⟨l, rfl⟩ := Option.isSome_iff_exists.mp ht
  exact .pure rfl

lemma sweepAuthorizations_done (h : w.Reliable) : Wp (Act (.straying w.env.nets desired once)) (sweepAuthorizations desired)
    (fun _ t => ∀ a, (t.left a).isSome → isStray w.env.nets desired a = false) w := by
  have shown : Wp (Act (.straying w.env.nets desired once)) snapshotGate
      (fun v t => (Idle w t ∧ Snapshot v t) ∧ v.byKey.isSome) w := snapshotGate_wp.both (snapshotGate_done h)
  refine .bind shown fun v t m₁ ht => .read ?_
  obtain ⟨⟨hi, hv⟩, hkey⟩ := ht
  obtain ⟨els, hels⟩ := Option.isSome_iff_exists.mp hkey
  have hr := h.moves m₁
  rw [hels, hi.env]
  dsimp only
  set strays := els.keys.filter (isStray w.env.nets desired) with hstrays
  have stray : ∀ a ∈ strays, isStray w.env.nets desired a = true := fun a ha => (List.mem_filter.mp ha).2
  -- What is there afterwards was listed, and is no stray unless it was removed.
  have swept : ∀ u, ReflTransGen (Act (.straying w.env.nets desired once)) t u → (∀ a ∈ strays, u.left a = none) →
      ∀ a, (u.left a).isSome → isStray w.env.nets desired a = false := by
    intro u moves hgone a ha
    by_contra hne
    have present : (t.left a).isSome := by
      by_contra hnone
      simp [straying_left_none moves (by simpa using hnone)] at ha
    have hin : a ∈ strays := List.mem_filter.mpr ⟨AList.mem_keys.mp (hv.complete els a hels present), by simpa using hne⟩
    simp [hgone a hin] at ha
  split
  · refine .bind (denyBatch_done hr stray) fun errs u m₂ hu => ?_
    refine (Wp.foldlM (fun _ _ x => ReflTransGen (Act (.straying w.env.nets desired once)) u x) (fun v e _ x hx => ?_) .refl).conseq
      fun _ x _ hx => swept x (m₂.trans hx) fun a ha => straying_left_none hx (hu a ha)
    exact (strayRemoved_steps x).conseq fun _ _ moves _ => hx.trans moves
  refine (Wp.foldlM (fun rest _ x => x.Reliable ∧ (∀ a ∈ rest, a ∈ strays) ∧
    ReflTransGen (Act (.straying w.env.nets desired once)) t x ∧ ∀ a ∈ strays, a ∉ rest → x.left a = none)
    (fun v b rest x hx => ?_) ⟨hr, fun _ h => h, .refl, fun a ha hn => absurd ha hn⟩).conseq
    fun _ x _ hx => swept x hx.2.2.1 fun a ha => hx.2.2.2 a ha (by simp)
  obtain ⟨hrx, hrest, hx, hgone⟩ := hx
  refine .bind (denyAccess_done hrx (stray b (hrest b (by simp)))) fun err y m₂ hy =>
    (strayRemoved_steps y).conseq fun _ z m₃ _ => ?_
  refine ⟨hrx.moves (m₂.trans m₃), fun a ha => hrest a (by simp [ha]), hx.trans (m₂.trans m₃), fun a ha hn => ?_⟩
  rcases eq_or_ne a b with rfl | hne
  · exact straying_left_none m₃ hy
  · exact straying_left_none (m₂.trans m₃) (hgone a ha (by simp [hne, hn]))

end

lemma strayClassGone_steps {bridge} : Steps (Act o) (strayClassGone bridge minor) := by
  have rest : Steps (Act o) (do
      modifyMem fun m => { m with minorOwner := Function.update m.minorOwner ⟨bridge, minor⟩ none }
      countStrays 1) := .bind (.change fun _ => .idle .aside) fun _ => .change fun _ => .idle .aside
  refine .read fun w => ?_
  cases w.mem.minorOwner ⟨bridge, minor⟩ with
  | none => exact rest
  | some owner => exact .bind endSeries_steps fun _ => rest

lemma Idle.tc_none (h : Idle w w') (hs : w.kern.tc.lookup slot = none) : w'.kern.tc.lookup slot = none := by
  by_contra hne
  have := h.tc slot (Option.ne_none_iff_isSome.mp hne)
  simp [hs] at this

lemma Act.tc_none (h : Act o w w') (hslot : ¬ o.slots slot) (hg : isGuestMinor slot.minor = true)
    (hs : w.kern.tc.lookup slot = none) : w'.kern.tc.lookup slot = none := by
  cases h with
  | idle hi => exact hi.tc_none hs
  | build s c hb =>
    have hne : slot ≠ s := by
      rintro rfl
      rcases hb with hb | hb
      · exact hslot hb
      · rw [hg] at hb
        cases hb
    simpa [AList.lookup_insert_ne hne] using hs
  | _ => exact hs

lemma moves_tc_none (moves : ReflTransGen (Act o) w w') (hslot : ¬ o.slots slot) (hg : isGuestMinor slot.minor = true)
    (hs : w.kern.tc.lookup slot = none) : w'.kern.tc.lookup slot = none :=
  keep (S := fun t => t.kern.tc.lookup slot = none) (fun act h => act.tc_none hslot hg h) moves hs

lemma removeClass_gone (h : w.Reliable) : Wp Idle (removeClass slot) (fun _ t => t.kern.tc.lookup slot = none) w := by
  refine ⟨(removeClass_idle w).1, ?_⟩
  change ((perform fun w => { w with kern := w.kern.dropClass slot }).run w).2.kern.tc.lookup slot = none
  rw [perform_run h]
  simp [Kernel.dropClass]

lemma deleteSession_gone (h : w.Reliable) :
    Wp Idle (deleteSession bridge minor) (fun _ t => t.kern.tc.lookup ⟨bridge, minor⟩ = none) w :=
  .bind (removeClass_gone h) fun _ t _ ht =>
    (removeClass_idle t).conseq fun _ _ moves _ => (Idle.of_moves moves).tc_none ht

lemma deleteSessionClass_gone (h : w.Reliable) (hg : isGuestMinor minor = true) :
    Wp Idle (deleteSessionClass bridge minor) (fun _ t => t.kern.tc.lookup ⟨bridge, minor⟩ = none) w := by
  unfold deleteSessionClass
  rw [if_neg (by simp [hg])]
  exact .bind (deleteSession_gone h) fun _ _ _ ht => .pure ht

lemma dropItems_gone {n i slots} (h : ∀ i, w.env.outcome n i = .done) :
    Wp Idle (dropItems n i slots) (fun _ t => ∀ slot ∈ slots, t.kern.tc.lookup slot = none) w := by
  induction slots generalizing i w with
  | nil => exact .pure (by simp)
  | cons slot rest ih =>
    refine .bind (M := fun out t => out = .done ∧ t = w) (.read (.pure ⟨h i, rfl⟩)) fun out t _ ht => ?_
    obtain ⟨rfl, rfl⟩ := ht
    refine .bind (land_done (dropClass_idle t slot)) fun err u _ hu => ?_
    obtain ⟨-, rfl⟩ := hu
    refine Wp.conseq (ih h) fun _ v moves hv s hs => ?_
    rcases List.mem_cons.mp hs with rfl | hs
    · exact (Idle.of_moves moves).tc_none (by simp [Kernel.dropClass])
    · exact hv s hs

lemma deleteClassesBatch_gone {minors} (h : w.Reliable) (hg : ∀ m ∈ minors, isGuestMinor m = true) :
    Wp Idle (deleteClassesBatch bridge minors) (fun _ t => ∀ m ∈ minors, t.kern.tc.lookup ⟨bridge, m⟩ = none) w := by
  unfold deleteClassesBatch
  rw [if_neg (by simpa using hg)]
  split
  next hnil => exact .pure (by simp [hnil])
  · refine .bind (call_done h) fun n t _ ht => ?_
    refine .bind (M := fun out u => out = .done ∧ u = t) (.read (.pure ⟨ht.2 0, rfl⟩)) fun out u _ hu => ?_
    obtain ⟨rfl, rfl⟩ := hu
    refine .bind (dropItems_gone ht.2) fun _ u _ hu => .pure fun m hm => hu _ ?_
    exact List.mem_flatMap.mpr ⟨m, hm, by simp⟩

lemma mem_classesOf {m} (hm : isGuestMinor m = true) (h : (w.kern.tc.lookup ⟨bridge, m⟩).isSome) :
    m ∈ (w.kern.classesOf isGuestMinor bridge).map (·.1) := by
  obtain ⟨c, hc⟩ := Option.isSome_iff_exists.mp h
  simp only [Kernel.classesOf, List.mem_map, List.mem_filterMap]
  exact ⟨(m, c), ⟨⟨_, c⟩, AList.mem_lookup_iff.mp hc, by simp [hm]⟩, rfl⟩

/-- Every guest class of the bridge is one the plan claims. -/
def ClassesClaimed (desired : Table Slot Wanted) (bridge : Bytes) (w : World) : Prop :=
  ∀ m, isGuestMinor m = true → (w.kern.tc.lookup ⟨bridge, m⟩).isSome → (desired.lookup ⟨bridge, m⟩).isSome

lemma ClassesClaimed.moves (h : ClassesClaimed desired bridge w) (moves : ReflTransGen (Act (.bare once)) w w') : ClassesClaimed desired bridge w' := by
  intro m hm hs
  refine h m hm ?_
  by_contra hnone
  simp [moves_tc_none moves (fun h => h) hm (by simpa using hnone)] at hs

lemma removeStrayClasses_wp {minors} (hg : ∀ m ∈ minors, isGuestMinor m = true) :
    Wp (Act (.bare once)) (removeStrayClasses bridge minors)
      (fun _ t => w.Reliable → ∀ m ∈ minors, t.kern.tc.lookup ⟨bridge, m⟩ = none) w := by
  have rest : ∀ {prog : NetdM Unit} {t : World}, Steps (Act (.bare once)) prog →
      (w.Reliable → ∀ m ∈ minors, t.kern.tc.lookup ⟨bridge, m⟩ = none) →
      Wp (Act (.bare once)) prog (fun _ t => w.Reliable → ∀ m ∈ minors, t.kern.tc.lookup ⟨bridge, m⟩ = none) t :=
    fun steps ht => (steps _).conseq fun _ _ moves _ hr m hm => moves_tc_none moves (fun h => h) (hg m hm) (ht hr m hm)
  unfold removeStrayClasses
  split
  next hnil => exact .pure (by simp [hnil])
  · have deleted : Wp (Act (.bare once)) (deleteClassesBatch bridge minors)
        (fun _ t => w.Reliable → ∀ m ∈ minors, t.kern.tc.lookup ⟨bridge, m⟩ = none) w :=
      ⟨(Idle.act deleteClassesBatch_idle w).1, fun hr => (deleteClassesBatch_gone hr hg).2⟩
    refine .bind deleted fun err t _ ht => rest ?_ ht
    split
    · exact .forM fun _ => Idle.act fail_idle
    refine .bind (Idle.act query_idle) fun down => ?_
    cases down with
    | none => exact .forM fun _ => Idle.act fail_idle
    | some down =>
      refine .bind (.change fun _ => .idle .aside) fun _ => .forM fun m => ?_
      split
      · exact Idle.act fail_idle
      · exact strayClassGone_steps

lemma sweepClasses_wp : Wp (Act (.bare once)) (sweepClasses desired bridge)
    (fun _ t => w.Reliable → ClassesClaimed desired bridge t) w := by
  have listed : Wp (Act (.bare once)) (readClasses bridge)
      (fun r t => w.Reliable → r = some (t.kern.classesOf isGuestMinor bridge)) w :=
    ⟨(Idle.act query_idle w).1, fun hr => by unfold readClasses; rw [query_run hr]⟩
  refine .bind listed fun installed t m₁ ht => ?_
  cases installed with
  | none => exact (Idle.act fail_idle t).conseq fun _ _ _ _ hr => nomatch ht hr
  | some installed =>
    refine .bind (.change (Q := fun _ u => Idle t u) (.idle .aside) .aside) fun _ u _ hu => .read ?_
    set strays := ((installed.map (·.1)).filter fun m =>
      isGuestMinor m && (desired.lookup ⟨bridge, m⟩).isNone).insertionSort (· ≤ ·) with hstrays
    have hg : ∀ m ∈ strays, isGuestMinor m = true := by
      intro m hm
      rw [hstrays, List.mem_insertionSort, List.mem_filter, Bool.and_eq_true] at hm
      exact hm.2.1
    -- What is there afterwards was listed, and is claimed unless it was removed.
    have claimed : ∀ v, ReflTransGen (Act (.bare once)) u v → w.Reliable →
        (∀ m ∈ strays, v.kern.tc.lookup ⟨bridge, m⟩ = none) → ClassesClaimed desired bridge v := by
      intro v moves hr hgone m hm hs
      by_contra hnone
      have present : (t.kern.tc.lookup ⟨bridge, m⟩).isSome := by
        refine hu.tc _ ?_
        by_contra habsent
        simp [moves_tc_none moves (fun h => h) hm (by simpa using habsent)] at hs
      have hin : m ∈ strays := by
        rw [hstrays, List.mem_insertionSort, List.mem_filter]
        refine ⟨?_, by simpa [hm] using hnone⟩
        rw [Option.some.inj (ht hr)]
        exact mem_classesOf hm present
      simp [hgone m hin] at hs
    split
    · exact (removeStrayClasses_wp hg).conseq fun _ v moves hv hr =>
        claimed v moves hr (hv ((hr.moves m₁).outer hu.toOuter))
    refine (Wp.forM (fun rest v => (∀ m ∈ rest, m ∈ strays) ∧
      (w.Reliable → v.Reliable ∧ ∀ m ∈ strays, m ∉ rest → v.kern.tc.lookup ⟨bridge, m⟩ = none))
      (fun m rest v hv => ?_) ⟨fun _ h => h, fun hr => ⟨(hr.moves m₁).outer hu.toOuter, fun m hm hn => absurd hm hn⟩⟩).conseq
      fun _ v moves hv hr => claimed v moves hr fun m hm => (hv.2 hr).2 m hm (by simp)
    have deleted : Wp (Act (.bare once)) (deleteSessionClass bridge m)
        (fun _ x => v.Reliable → x.kern.tc.lookup ⟨bridge, m⟩ = none) v :=
      ⟨(Idle.act deleteSessionClass_idle v).1, fun hr => (deleteSessionClass_gone hr (hg m (hv.1 m (by simp)))).2⟩
    refine .bind deleted fun err x m₂ hx => ?_
    have rest : ∀ {prog : NetdM Unit}, Steps (Act (.bare once)) prog → Wp (Act (.bare once)) prog (fun _ y =>
        (∀ m ∈ rest, m ∈ strays) ∧
        (w.Reliable → y.Reliable ∧ ∀ m ∈ strays, m ∉ rest → y.kern.tc.lookup ⟨bridge, m⟩ = none)) x := by
      intro prog steps
      refine (steps x).conseq fun _ y moves _ => ⟨fun m' hm' => hv.1 m' (by simp [hm']), fun hr => ?_⟩
      obtain ⟨hrv, hgone⟩ := hv.2 hr
      refine ⟨hrv.moves (m₂.trans moves), fun m' hm' hn => ?_⟩
      rcases eq_or_ne m' m with rfl | hne
      · exact moves_tc_none moves (fun h => h) (hg _ hm') (hx hrv)
      · exact moves_tc_none (m₂.trans moves) (fun h => h) (hg _ hm') (hgone m' hm' (by simp [hne, hn]))
    split
    · exact rest (Idle.act fail_idle)
    · exact rest strayClassGone_steps

lemma sweepAll_wp {bridges : List Bytes} : Wp (Act (.bare once)) (bridges.forM (sweepClasses desired))
    (fun _ t => w.Reliable → ∀ b ∈ bridges, ClassesClaimed desired b t) w := by
  refine (Wp.forM (fun rest t => w.Reliable → t.Reliable ∧ ∀ b ∈ bridges, b ∉ rest → ClassesClaimed desired b t)
    (fun b rest t ht => ?_) fun hr => ⟨hr, fun b hb hn => absurd hb hn⟩).conseq fun _ _ _ ht hr b hb => (ht hr).2 b hb (by simp)
  refine sweepClasses_wp.conseq fun _ u moves hu hr => ?_
  obtain ⟨hrt, hclaimed⟩ := ht hr
  refine ⟨hrt.moves moves, fun b' hb' hn => ?_⟩
  rcases eq_or_ne b' b with rfl | hne
  · exact hu hrt
  · exact (hclaimed b' hb' (by simp [hne, hn])).moves moves

/-- Nothing is left that the plan does not claim. -/
structure Swept (env : Envelope) (desired : Table Slot Wanted) (w : World) : Prop where
  elements : ∀ a, (w.left a).isSome → isStray w.env.nets desired a = false
  classes : ∀ b ∈ declaredBridges env, ClassesClaimed desired b w

end StayConnect.Netd
