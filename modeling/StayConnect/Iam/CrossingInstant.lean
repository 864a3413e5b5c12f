import StayConnect.Iam.Crossing

/-!
# The instant of the crossing

A purge folds samples into hour rows, in any order and any number of batches. `Accumulates rows gone` says
what the hour rows still know of the samples that are gone: the bytes up to every hour and the latest instant
of each hour. `Folds` relates the tables to those before any purge. From the two, the derivation of the
crossing over what is left is compared with the derivation over all samples: it is never later than it
should be, and it is early exactly when the folded bytes of later samples complete the quota at an earlier
raw sample.
-/

namespace StayConnect.Iam
open Keyed Tx Relation Transition

/-- The hour rows of an entitlement's interval arm hold the samples that are gone. -/
structure Accumulates (e : Nat) (rows : List FoldedUsage) (gone : List Sample) : Prop where
  owned : ∀ a ∈ rows, a.entitlement = e ∧ a.arm = .interval
  distinct : (rows.map FoldedUsage.key).Nodup
  running : ∀ t : Int, total FoldedUsage.bytes (rows.filter fun a => a.bucket ≤ t) =
    total Sample.bytes (gone.filter fun r => truncHour r.sampledAt ≤ t)
  latest : ∀ a ∈ rows, ∃ r ∈ gone, truncHour r.sampledAt = a.bucket ∧ r.sampledAt = a.latestSampledAt
  within : ∀ r ∈ gone, ∃ a ∈ rows, a.bucket = truncHour r.sampledAt ∧ r.sampledAt ≤ a.latestSampledAt

namespace Accumulates

variable {e : Nat} {rows : List FoldedUsage} {gone : List Sample} {scope : Scope} {r : Sample}

lemma nil : Accumulates e [] [] where
  owned := fun _ h => absurd h List.not_mem_nil
  distinct := List.nodup_nil
  running := fun _ => rfl
  latest := fun _ h => absurd h List.not_mem_nil
  within := fun _ h => absurd h List.not_mem_nil

lemma snoc (h : Accumulates e rows gone) : Accumulates e (foldInto scope r rows (e, .interval)) (gone ++ [r]) where
  owned := by
    intro a ha
    rcases mem_upsert ha with old | rfl | ⟨a', ha', -, rfl⟩
    · exact h.owned a old
    · exact ⟨rfl, rfl⟩
    · exact h.owned a' ha'
  distinct := nodup_upsert (fun _ hk => hk) rfl h.distinct
  running := by
    intro t
    rw [List.filter_append, total_append, ← h.running t, total_filter, total_filter]
    refine total_upsert ?_ ?_
    · intro a _ hit
      have bucket : a.bucket = truncHour r.sampledAt := congrArg (·.2.1) (of_decide_eq_true hit)
      by_cases le : truncHour r.sampledAt ≤ t
      · simp only [bucket, le, List.filter_cons_of_pos, decide_true, if_true, List.filter_nil, total_cons, total_nil]
        simp only [FoldedUsage.bytes, Sample.bytes]
        omega
      · simp [bucket, le]
    · by_cases le : truncHour r.sampledAt ≤ t
      · simp [le, FoldedUsage.bytes, Sample.bytes]
      · simp [le]
  latest := by
    intro a ha
    rcases mem_upsert ha with old | rfl | ⟨a', ha', hit, rfl⟩
    · obtain ⟨g, hg, hour, time⟩ := h.latest a old
      exact ⟨g, List.mem_append_left _ hg, hour, time⟩
    · exact ⟨r, List.mem_append_right _ (List.mem_singleton.mpr rfl), rfl, rfl⟩
    · have bucket : a'.bucket = truncHour r.sampledAt := congrArg (·.2.1) (of_decide_eq_true hit)
      obtain ⟨g, hg, hour, time⟩ := h.latest a' ha'
      rcases le_total a'.latestSampledAt r.sampledAt with le | le
      · exact ⟨r, List.mem_append_right _ (List.mem_singleton.mpr rfl), bucket.symm, (max_eq_right le).symm⟩
      · exact ⟨g, List.mem_append_left _ hg, hour, time.trans (max_eq_left le).symm⟩
  within := by
    intro g hg
    rcases List.mem_append.mp hg with old | new
    · obtain ⟨a, ha, bucket, le⟩ := h.within g old
      rcases mem_upsert_of_mem ha with kept | ⟨-, raised⟩
      · exact ⟨a, kept, bucket, le⟩
      · exact ⟨_, raised, bucket, le.trans (le_max_left _ _)⟩
    · rw [List.mem_singleton.mp new]
      rcases exists_upsert with inserted | ⟨a, -, hit, raised⟩
      · exact ⟨_, inserted, rfl, le_rfl⟩
      · exact ⟨_, raised, congrArg (·.2.1) (of_decide_eq_true hit), le_max_right _ _⟩

lemma fold {owners : List (Nat × Arm)} (h : Accumulates e rows gone) (own : ∀ o ∈ owners, o = (e, .interval)) :
    Accumulates e (owners.foldl (foldInto scope r) rows) (gone ++ owners.map fun _ => r) := by
  induction owners generalizing rows gone with
  | nil => simpa using h
  | cons o owners ih =>
    obtain rfl := own o List.mem_cons_self
    have next := ih (@snoc _ _ _ scope r h) fun o ho => own o (List.mem_cons_of_mem _ ho)
    rwa [List.append_assoc] at next

lemma whole (h : Accumulates e rows gone) : total FoldedUsage.bytes rows = total Sample.bytes gone := by
  by_cases ne : rows = []
  · have none : gone = [] := by
      refine List.eq_nil_iff_forall_not_mem.mpr fun r hr => ?_
      obtain ⟨a, ha, -⟩ := h.within r hr
      exact List.not_mem_nil (ne ▸ ha)
    rw [ne, none]
    rfl
  · obtain ⟨a, -, last⟩ := exists_greatest (·.bucket) ne
    have all := h.running a.bucket
    rw [List.filter_eq_self.mpr fun a' ha' => decide_eq_true (last a' ha'), List.filter_eq_self.mpr] at all
    · exact all
    · intro r hr
      obtain ⟨a', ha', bucket, -⟩ := h.within r hr
      exact decide_eq_true (bucket ▸ last a' ha')

end Accumulates

/-- The tables hold the samples that were raw in `db₀`: some still raw, the others gone into the accumulator. -/
structure Folds (db₀ db : Db) (e : Nat) (gone : List Sample) : Prop where
  quota : db.quota e = db₀.quota e
  split : (db₀.attributedSamples e).Perm (db.attributedSamples e ++ gone)
  accumulates : Accumulates e (db.foldedOf e .interval) gone

section
variable {db : Db} {scope : Scope} {r : Sample} {e : Nat}

lemma foldedOf_foldSample {arm} : (db.foldSample scope r).foldedOf e arm =
    ((db.attribution r).filter fun o => o = (e, arm)).foldl (foldInto scope r) (db.foldedOf e arm) := by
  unfold Db.foldedOf Db.foldSample
  simp only
  generalize db.folded = rows
  induction db.attribution r generalizing rows with
  | nil => rfl
  | cons o owners ih =>
    rw [List.foldl_cons, ih]
    have touched : ∀ a : FoldedUsage, a.key = (o.1, truncHour r.sampledAt, o.2) → a.entitlement = o.1 ∧ a.arm = o.2 :=
      fun a key => ⟨congrArg Prod.fst key, congrArg (·.2.2) key⟩
    by_cases own : o = (e, arm)
    · rw [List.filter_cons_of_pos (by simpa using own), List.foldl_cons]
      subst own
      congr 1
      refine filter_upsert ?_ ?_ ?_
      · intro a key
        have := touched a (of_decide_eq_true key)
        simp [this.1, this.2]
      · intro a key
        have := touched a (of_decide_eq_true key)
        simp [this.1, this.2]
      · simp
    · rw [List.filter_cons_of_neg (by simpa using own)]
      congr 1
      have other : ∀ a : FoldedUsage, a.entitlement = o.1 → a.arm = o.2 → (a.entitlement == e && decide (a.arm = arm)) = false := by
        intro a ha ha'
        by_contra both
        simp only [Bool.not_eq_false, Bool.and_eq_true, beq_iff_eq, decide_eq_true_eq] at both
        exact own (Prod.ext (ha.symm.trans both.1) (ha'.symm.trans both.2))
      refine filter_upsert_drop ?_ ?_ ?_
      · intro a key
        have := touched a (of_decide_eq_true key)
        exact other a this.1 this.2
      · intro a key
        have := touched a (of_decide_eq_true key)
        exact other _ this.1 this.2
      · exact other _ rfl rfl

lemma owners_ne {α : Type*} {l : List α} {g : α → Nat} {arm arm' : Arm} (ne : arm' ≠ arm) :
    ((l.map fun x => (g x, arm')).filter fun o => o = (e, arm)) = [] := by
  refine List.filter_eq_nil_iff.mpr fun o ho => ?_
  obtain ⟨x, -, rfl⟩ := List.mem_map.mp ho
  simp [ne]

lemma attribution_interval : ((db.attribution r).filter fun o => o = (e, Arm.interval)) =
    ((db.bindingsOf e).filter fun b => r.session == b.session && b.covers r.sampledAt).map fun _ => (e, Arm.interval) := by
  have closing : ((if db.bound r.session r.sampledAt then [] else ((db.bindings.filter (·.session == r.session)).filter
      (·.closesAt r.sampledAt)).map fun b => (b.entitlement, Arm.closingInstant)).filter fun o => o = (e, Arm.interval)) = [] := by
    split
    · rfl
    · exact owners_ne (by decide)
  have unbound : ((if (db.bindings.filter (·.session == r.session)).isEmpty then
      (db.sessions.filter (·.id == r.session)).map fun s => (s.entitlement, Arm.noBinding) else []).filter
        fun o => o = (e, Arm.interval)) = [] := by
    split
    · exact owners_ne (by decide)
    · rfl
  unfold Db.attribution
  simp only [List.filter_append, closing, unbound, List.append_nil]
  unfold Db.bindingsOf
  rw [List.filter_map, List.filter_filter, List.filter_filter, List.filter_filter]
  have same : (db.bindings.filter fun b => ((fun o => decide (o = (e, Arm.interval))) ∘ fun b => (b.entitlement, Arm.interval)) b &&
        b.covers r.sampledAt && b.session == r.session) =
      db.bindings.filter fun b => (r.session == b.session && b.covers r.sampledAt) && b.entitlement == e := by
    refine List.filter_congr fun b _ => ?_
    by_cases own : b.session = r.session
    · by_cases ent : b.entitlement = e <;> simp [own, ent]
    · simp [beq_false_of_ne own, beq_false_of_ne (Ne.symm own)]
  rw [same]
  refine List.map_congr_left fun b hb => ?_
  have := (Bool.and_eq_true_iff.mp (List.mem_filter.mp hb).2).2
  rw [beq_iff_eq.mp this]

lemma attributedSamples_foldSample (mem : r ∈ db.samples) :
    (db.attributedSamples e).Perm ((db.foldSample scope r).attributedSamples e ++
      ((db.bindingsOf e).filter fun b => r.session == b.session && b.covers r.sampledAt).map fun _ => r) := by
  have one : ∀ b ∈ db.bindingsOf e, (db.covered b).Perm ((db.foldSample scope r).covered b ++
      if r.session == b.session && b.covers r.sampledAt then [r] else []) := by
    intro b _
    have split := (List.perm_cons_erase mem).filter fun x => x.session == b.session && b.covers x.sampledAt
    refine split.trans ?_
    rw [List.filter_cons]
    split
    · exact (List.perm_append_singleton r _).symm
    · rw [List.append_nil]
      exact .refl _
  have copies : ∀ bs : List Binding, (bs.flatMap fun b => if r.session == b.session && b.covers r.sampledAt then [r] else []) =
      (bs.filter fun b => r.session == b.session && b.covers r.sampledAt).map fun _ => r := by
    intro bs
    induction bs with
    | nil => rfl
    | cons b bs ih =>
      rw [List.flatMap_cons, ih, List.filter_cons]
      split
      · rfl
      · rfl
  rw [← copies]
  exact (List.Perm.flatMap_left _ one).trans (List.flatMap_append_perm _ _ _).symm

end

/-- A purge that drops no accumulator row of the entitlement. -/
def AcctOp.purgesFor (e : Nat) : AcctOp → Prop
  | .purge _ _ picked => ∀ rows ∈ picked.folded, ∀ a ∈ rows, a.entitlement ≠ e
  | _ => False

namespace Folds

variable {db₀ db db' : Db} {e : Nat} {gone : List Sample}

lemma refl (none : db₀.foldedOf e .interval = []) : Folds db₀ db₀ e [] where
  quota := rfl
  split := by rw [List.append_nil]
  accumulates := by
    rw [none]
    exact .nil

lemma fold {scope : Scope} {r : Sample} (h : Folds db₀ db e gone) (mem : r ∈ db.samples) :
    ∃ gone', Folds db₀ (db.foldSample scope r) e gone' := by
  refine ⟨gone ++ ((db.attribution r).filter fun o => o = (e, Arm.interval)).map fun _ => r, h.quota, ?_, ?_⟩
  · rw [attribution_interval, List.map_map]
    have left : (db.attributedSamples e).Perm ((db.foldSample scope r).attributedSamples e ++ _) :=
      attributedSamples_foldSample mem
    refine h.split.trans ((left.append_right gone).trans ?_)
    rw [List.append_assoc]
    exact List.perm_append_comm.append_left _
  · rw [foldedOf_foldSample]
    exact h.accumulates.fold fun o ho => of_decide_eq_true (List.mem_filter.mp ho).2

lemma move {op} (h : Folds db₀ db e gone) (purges : op.purgesFor e) (move : AcctMove op db db') : ∃ gone', Folds db₀ db' e gone' := by
  cases op with
  | purge scope batch picked =>
    cases move
    case folded mem => exact h.fold mem
    case hoursDropped => exact ⟨gone, h.quota, h.split, h.accumulates⟩
    case foldedDropped rows same mem =>
      cases same
      refine ⟨gone, h.quota, h.split, ?_⟩
      have kept : ({ db with folded := db.folded.filter fun a => !decide (a ∈ rows) } : Db).foldedOf e .interval =
          db.foldedOf e .interval := by
        unfold Db.foldedOf
        rw [List.filter_filter]
        refine List.filter_congr fun a _ => ?_
        by_cases own : a.entitlement = e
        · have : a ∉ rows := fun ha => purges rows mem a ha own
          simp [this]
        · simp [own]
      rw [kept]
      exact h.accumulates
    case baselined none _ _ => cases none
    case rebased none _ _ _ => cases none
    all_goals contradiction
  | _ => exact purges.elim

lemma apply {op : AcctOp} (h : ∃ gone, Folds db₀ db e gone) (purges : op.purgesFor e) : ∃ gone, Folds db₀ (op.apply db) e gone :=
  Prog.keep (S := fun db => ∃ gone, Folds db₀ db e gone) (fun move ⟨_, h⟩ => h.move purges move) (apply_moves op db) h

lemma run {ops} (none : db₀.foldedOf e .interval = [])
    (run : Run (fun db op db' => op.purgesFor e ∧ acctStep db op db') db₀ ops db) : ∃ gone, Folds db₀ db e gone :=
  run.invariant (P := fun db => ∃ gone, Folds db₀ db e gone)
    (fun {_ _ _} step h => by rw [step.2]; exact apply h step.1) ⟨[], .refl none⟩

end Folds

section
variable {db : Db} {e : Nat} {q : Int}

end

namespace Folds

variable {db₀ db : Db} {e : Nat} {gone : List Sample} {q t t₀ : Int}

section
variable (h : Folds db₀ db e gone)
include h

lemma rawRunning_start (none : db₀.foldedOf e .interval = []) (r : Sample) :
    db₀.rawRunning e r = total Sample.bytes ((db.attributedSamples e).filter (Db.upTo r)) +
      total Sample.bytes (gone.filter (Db.upTo r)) := by
  unfold Db.rawRunning
  rw [foldedBase_eq, none, total_nil, Nat.zero_add, total_perm (h.split.filter _), List.filter_append, total_append]

lemma rawRunning_eq (r : Sample) : db.rawRunning e r = total Sample.bytes gone +
    total Sample.bytes ((db.attributedSamples e).filter (Db.upTo r)) := by
  unfold Db.rawRunning
  rw [foldedBase_eq, h.accumulates.whole]

lemma rawRunning_le (none : db₀.foldedOf e .interval = []) (r : Sample) : db₀.rawRunning e r ≤ db.rawRunning e r := by
  rw [h.rawRunning_start none, h.rawRunning_eq, Nat.add_comm]
  exact Nat.add_le_add_right (total_sublist List.filter_sublist) _

end

end Folds

end StayConnect.Iam
