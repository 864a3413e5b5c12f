import StayConnect.Iam.Counters

/-!
# The data-quota crossing

`p6_data_crossing_full` derives the crossing from every attributed row; it finds one exactly when the
attributed bytes reach the quota. `p6_data_crossing` asks it only once the checkpointed estimate has reached
the quota, so an estimate below the attributed bytes hides a crossing. `Enough` is the invariant that rules
this out: what the checkpoints of an entitlement have counted includes its folded bytes and the raw bytes
they have moved past. Every accounting operation keeps it, except a purge that folds a sample before the
checkpoint of its binding has examined it.
-/

namespace StayConnect.Iam
open Keyed Tx Relation Transition

section
variable {db : Db} {e : Nat} {q : Int}

lemma exists_greatest {α β} [LinearOrder β] (key : α → β) {rows} (ne : rows ≠ []) : ∃ x ∈ rows, ∀ y ∈ rows, key y ≤ key x := by
  cases h : rows.argmax key with
  | none => exact absurd (List.argmax_eq_none.mp h) ne
  | some x => exact ⟨x, List.argmax_mem h, fun y hy => List.le_of_mem_argmax hy h⟩

lemma foldedRunning_le {a} : db.foldedRunning e a ≤ total FoldedUsage.bytes (db.foldedOf e .interval) :=
  total_sublist List.filter_sublist

lemma exists_foldedRunning_eq (ne : db.foldedOf e .interval ≠ []) : ∃ a ∈ db.foldedOf e .interval,
    db.foldedRunning e a = total FoldedUsage.bytes (db.foldedOf e .interval) := by
  obtain ⟨a, mem, last⟩ := exists_greatest (·.bucket) ne
  refine ⟨a, mem, ?_⟩
  unfold Db.foldedRunning
  rw [List.filter_eq_self.mpr fun a' ha' => decide_eq_true (last a' ha')]

lemma foldedBase_eq : db.foldedBase e = total FoldedUsage.bytes (db.foldedOf e .interval) := by
  unfold Db.foldedBase
  by_cases ne : db.foldedOf e .interval = []
  · rw [ne]
    rfl
  obtain ⟨a, mem, all⟩ := exists_foldedRunning_eq ne
  have top : ((db.foldedOf e .interval).map (db.foldedRunning e)).max? =
      some (total FoldedUsage.bytes (db.foldedOf e .interval)) := by
    refine List.max?_eq_some_iff.mpr ⟨all ▸ List.mem_map_of_mem mem, ?_⟩
    intro n hn
    obtain ⟨a', -, rfl⟩ := List.mem_map.mp hn
    exact foldedRunning_le
  rw [top]
  rfl

lemma rawRunning_le {r} : db.rawRunning e r ≤ db.attributed e := by
  unfold Db.rawRunning Db.attributed
  rw [foldedBase_eq]
  exact Nat.add_le_add_left (total_sublist List.filter_sublist) _

lemma exists_rawRunning_eq (ne : db.attributedSamples e ≠ []) : ∃ r ∈ db.attributedSamples e, db.rawRunning e r = db.attributed e := by
  obtain ⟨r, mem, last⟩ := exists_greatest (fun r : Sample => toLex (r.sampledAt, r.id)) ne
  refine ⟨r, mem, ?_⟩
  unfold Db.rawRunning Db.attributed
  rw [foldedBase_eq, List.filter_eq_self.mpr]
  intro r' hr'
  have le := Prod.Lex.toLex_le_toLex.mp (last r' hr')
  simpa [Db.upTo] using le

lemma p6DataCrossingFull_eq_none (quota : db.quota e = some q) : db.p6DataCrossingFull e = none ↔
    (∀ a ∈ db.foldedOf e .interval, (db.foldedRunning e a : Int) < q) ∧
      ∀ r ∈ db.attributedSamples e, (db.rawRunning e r : Int) < q := by
  unfold Db.p6DataCrossingFull
  simp only [quota, Option.bind_some, List.min?_eq_none_iff, List.append_eq_nil_iff, List.map_eq_nil_iff,
    List.filter_eq_nil_iff, decide_eq_true_eq, not_le]

/-- The derivation finds no crossing exactly below the quota. A quota of zero needs a row to be crossed at. -/
lemma p6DataCrossingFull_eq_none_iff (quota : db.quota e = some q)
    (rows : 0 < q ∨ db.foldedOf e .interval ≠ [] ∨ db.attributedSamples e ≠ []) :
    db.p6DataCrossingFull e = none ↔ (db.attributed e : Int) < q := by
  rw [p6DataCrossingFull_eq_none quota]
  constructor
  · rintro ⟨folded, raw⟩
    by_cases someRaw : db.attributedSamples e = []
    · by_cases someFolded : db.foldedOf e .interval = []
      · have empty : db.attributed e = 0 := by
          unfold Db.attributed
          rw [someRaw, someFolded]
          rfl
        rw [empty]
        exact rows.resolve_right (not_or.mpr ⟨not_not.mpr someFolded, not_not.mpr someRaw⟩)
      · obtain ⟨a, mem, all⟩ := exists_foldedRunning_eq someFolded
        have whole : db.attributed e = db.foldedRunning e a := by
          unfold Db.attributed
          rw [someRaw, all]
          rfl
        rw [whole]
        exact folded a mem
    · obtain ⟨r, mem, all⟩ := exists_rawRunning_eq someRaw
      rw [← all]
      exact raw r mem
  · intro below
    refine ⟨fun a _ => ?_, fun r _ => ?_⟩
    · have le : db.foldedRunning e a ≤ db.attributed e := foldedRunning_le.trans (Nat.le_add_right _ _)
      omega
    · have le := @rawRunning_le db e r
      omega

end

/-- The raw bytes of a binding up to a sequence number. -/
def heldUpTo (samples : List Sample) (b : Binding) (n : Nat) : Nat :=
  total Sample.bytes (samples.filter fun r => r.session == b.session && b.covers r.sampledAt && decide (r.sampleSeq ≤ n))

/-- The number was given to a sample of the session. -/
def Known (db : Db) (session n : Nat) : Prop := ∃ c ∈ db.checkpoints, c.session = session ∧ n ≤ c.lastSampleSeq

/-- The checkpoint rows belong to bindings, one each, and stand at numbers already given to samples. -/
structure Aligned (db : Db) : Prop where
  ids : (db.bindings.map (·.id)).Nodup
  keys : (db.progress.map (·.binding)).Nodup
  owned : ∀ p ∈ db.progress, ∃ b ∈ db.bindings, b.id = p.binding ∧ b.entitlement = p.entitlement ∧ b.session = p.session
  numbered : ∀ r ∈ db.samples, 0 < r.sampleSeq ∧ Known db r.session r.sampleSeq
  seen : ∀ p ∈ db.progress, 0 < p.examinedSeq → Known db p.session p.examinedSeq

/-- The checkpoints of every entitlement have counted its folded bytes and the raw bytes they moved past. -/
structure Enough (db : Db) : Prop extends Aligned db where
  enough : ∀ e, db.due e ≤ total (·.countedBytes) (db.progressRows e)

variable {db db' : Db} {n : Nat} {op : AcctOp}

lemma Known.mono {session} (h : Known db session n) (remembers : Remembers session db db') : Known db' session n := by
  obtain ⟨c, mem, hs, le⟩ := h
  obtain ⟨c', mem', hs', le'⟩ := remembers c mem hs
  exact ⟨c', mem', hs', le.trans le'⟩

section
variable {samples : List Sample} {b : Binding} {n : Nat}

lemma heldUpTo_zero (pos : ∀ r ∈ samples, 0 < r.sampleSeq) : heldUpTo samples b 0 = 0 := by
  unfold heldUpTo
  rw [List.filter_eq_nil_iff.mpr]
  · rfl
  · intro r hr
    have := pos r hr
    simp only [Bool.and_eq_true, decide_eq_true_eq, not_and]
    omega

lemma heldUpTo_le {b'} (session : b'.session = b.session) (covers : ∀ t, b'.covers t → b.covers t) :
    heldUpTo samples b' n ≤ heldUpTo samples b n := by
  refine total_sublist (List.monotone_filter_right _ fun r hr => ?_)
  simp only [Bool.and_eq_true] at hr ⊢
  exact ⟨⟨session ▸ hr.1.1, covers _ hr.1.2⟩, hr.2⟩

lemma heldUpTo_snoc {r} (above : r.session = b.session → n < r.sampleSeq) : heldUpTo (samples ++ [r]) b n = heldUpTo samples b n := by
  unfold heldUpTo
  rw [List.filter_append, List.filter_cons_of_neg, List.filter_nil, List.append_nil]
  simp only [Bool.and_eq_true, beq_iff_eq, decide_eq_true_eq, not_and, not_le]
  exact fun h => above h.1

lemma heldUpTo_erase {r} (mem : r ∈ samples) (examined : r.session = b.session → b.covers r.sampledAt → r.sampleSeq ≤ n) :
    heldUpTo (samples.erase r) b n + (if r.session == b.session && b.covers r.sampledAt then r.bytes else 0) =
      heldUpTo samples b n := by
  unfold heldUpTo
  rw [total_filter, total_filter, total_perm (List.perm_cons_erase mem), total_cons, Nat.add_comm]
  congr 1
  by_cases h : r.session == b.session && b.covers r.sampledAt
  · have := (Bool.and_eq_true_iff.mp h)
    rw [if_pos h, if_pos]
    rw [h, Bool.true_and, decide_eq_true_eq]
    exact examined (beq_iff_eq.mp this.1) this.2
  · rw [if_neg h, if_neg fun k => h (Bool.and_eq_true_iff.mp k).1]

end

section
variable {db : Db} {e : Nat}

lemma mem_bindingsOf {b} : b ∈ db.bindingsOf e ↔ b ∈ db.bindings ∧ b.entitlement = e := by
  unfold Db.bindingsOf
  rw [List.mem_filter, beq_iff_eq]

lemma mem_progressRows {p} : p ∈ db.progressRows e ↔ p ∈ db.progress ∧ p.entitlement = e := by
  unfold Db.progressRows
  rw [List.mem_filter, beq_iff_eq]

lemma examined_eq {b} (pos : ∀ r ∈ db.samples, 0 < r.sampleSeq) : db.examined b = heldUpTo db.samples b (db.examinedSeq b) := by
  unfold Db.examined Db.examinedSeq
  cases db.progressOf b with
  | none => exact (heldUpTo_zero pos).symm
  | some p =>
    simp only [Option.elim_some, Db.covered, List.filter_filter, heldUpTo]
    congr 2
    funext r
    exact Bool.and_comm _ _

lemma due_eq (pos : ∀ r ∈ db.samples, 0 < r.sampleSeq) :
    db.due e = total FoldedUsage.bytes (db.foldedOf e .interval) +
      total (fun b => heldUpTo db.samples b (db.examinedSeq b)) (db.bindingsOf e) := by
  unfold Db.due
  rw [total_congr fun b _ => examined_eq pos]

lemma Aligned.owner {b p} (h : Aligned db) (mem : b ∈ db.bindings)
    (row : p ∈ db.progress) (key : p.binding = b.id) : b.entitlement = p.entitlement ∧ b.session = p.session := by
  obtain ⟨b', mem', id, ent, ses⟩ := h.owned p row
  obtain rfl : b' = b := List.inj_on_of_nodup_map h.ids mem' mem (id.trans key)
  exact ⟨ent, ses⟩

end

section
variable {db : Db} {scope : Scope} {r : Sample} {e : Nat} {arm : Arm}

lemma total_foldInto {rows o} :
    total FoldedUsage.bytes ((foldInto scope r rows o).filter fun a => a.entitlement == e && decide (a.arm = arm)) =
      total FoldedUsage.bytes (rows.filter fun a => a.entitlement == e && decide (a.arm = arm)) +
        if o = (e, arm) then r.bytes else 0 := by
  have hit : ∀ e' arm', (e' == e && decide (arm' = arm)) = decide ((e', arm') = (e, arm)) := by
    intro e' arm'
    by_cases h : e' = e <;> simp [h]
  rw [total_filter, total_filter]
  refine total_upsert ?_ ?_
  · intro a _ key
    have key := of_decide_eq_true key
    have ent : a.entitlement = o.1 := congrArg Prod.fst key
    have own : a.arm = o.2 := congrArg (·.2.2) key
    simp only [hit, ent, own, decide_eq_true_eq]
    split
    · simp only [FoldedUsage.bytes, Sample.bytes]
      omega
    · rfl
  · simp only [hit, decide_eq_true_eq]
    rfl

/-- A folded sample adds its bytes once for every owner it is attributed to. -/
lemma total_foldSample : total FoldedUsage.bytes ((db.foldSample scope r).foldedOf e arm) =
    total FoldedUsage.bytes (db.foldedOf e arm) + total (fun o => if o = (e, arm) then r.bytes else 0) (db.attribution r) := by
  unfold Db.foldedOf Db.foldSample
  generalize db.folded = rows
  induction db.attribution r generalizing rows with
  | nil => rfl
  | cons o owners ih => rw [List.foldl_cons, ih, total_foldInto, total_cons, Nat.add_assoc]

lemma bindingsOf_rebound {db db' : Db} {f : Binding → Binding} {l : List Binding} {e : Nat} (bindings : db'.bindings = db.bindings.map f ++ l)
    (entitlement : ∀ b, (f b).entitlement = b.entitlement) : db'.bindingsOf e = (db.bindingsOf e).map f ++ l.filter (·.entitlement == e) := by
  unfold Db.bindingsOf
  rw [bindings, List.filter_append, List.filter_map]
  congr 3
  funext b
  simp only [Function.comp_apply, entitlement]

lemma total_owners {p arm'} :
    total (fun o => if o = (e, arm) then r.bytes else 0)
      (((db.bindings.filter (·.session == r.session)).filter p).map fun b => (b.entitlement, arm')) =
      if arm' = arm then total (fun b => if r.session == b.session && p b then r.bytes else 0) (db.bindingsOf e) else 0 := by
  unfold Db.bindingsOf
  rw [total_map, total_filter, total_filter, total_filter]
  split
  case isTrue same =>
    subst same
    refine total_congr fun b _ => ?_
    by_cases own : b.session = r.session
    · by_cases ent : b.entitlement = e <;> simp [own, ent]
    · simp [own, Ne.symm own]
  case isFalse ne =>
    refine total_eq_zero fun b _ => ?_
    simp [ne]

lemma total_unbound (ne : arm ≠ .noBinding) : total (fun o => if o = (e, arm) then r.bytes else 0)
    (if (db.bindings.filter (·.session == r.session)).isEmpty then
      (db.sessions.filter (·.id == r.session)).map fun s => (s.entitlement, Arm.noBinding) else []) = 0 := by
  split
  · rw [total_map]
    exact total_eq_zero fun s _ => if_neg fun h => ne (congrArg Prod.snd h).symm
  · rfl

/-- The interval arm takes a folded sample once for every binding that held it. -/
lemma total_attribution_interval : total (fun o => if o = (e, Arm.interval) then r.bytes else 0) (db.attribution r) =
    total (fun b => if r.session == b.session && b.covers r.sampledAt then r.bytes else 0) (db.bindingsOf e) := by
  unfold Db.attribution
  rw [total_append, total_append, total_owners, if_pos rfl]
  have closing : total (fun o => if o = (e, Arm.interval) then r.bytes else 0)
      (if db.bound r.session r.sampledAt then [] else ((db.bindings.filter (·.session == r.session)).filter
        (·.closesAt r.sampledAt)).map fun b => (b.entitlement, Arm.closingInstant)) = 0 := by
    split
    · rfl
    · rw [total_owners, if_neg (by decide)]
  rw [closing, total_unbound (by decide)]
  rfl

end

lemma AcctMove.remembers (move : AcctMove op db db') (session : Nat) : Remembers session db db' := by
  cases none : op.observation with
  | none => exact fun c mem hs => ⟨c, (move.countersKept none).checkpoints ▸ mem, hs, le_rfl⟩
  | some o =>
    cases move
    case baselined => exact .baseline
    case rebased => exact .rebase
    case grown => exact .grown
    all_goals
      subst_vars
      cases none

/-- The checkpoint row of a binding written: moved to `seq` and raised by `n`. -/
def Db.checkpointed (db : Db) (b : Binding) (seq n : Nat) (g : Bool → Bool) : Db :=
  { db with
    progress := upsert (fun p => p.binding = b.id) ⟨b.id, b.entitlement, b.session, seq, n, g false⟩
      (fun p => { p with examinedSeq := max p.examinedSeq seq, countedBytes := p.countedBytes + n, final := g p.final })
      db.progress }

lemma examinedSeq_checkpointed {b b' seq g} :
    (db.checkpointed b seq n g).examinedSeq b' = if b'.id = b.id then max (db.examinedSeq b') seq else db.examinedSeq b' := by
  unfold Db.examinedSeq Db.progressOf
  rw [show (db.checkpointed b seq n g).progress = upsert _ _ _ db.progress from rfl]
  split
  case isTrue hit =>
    rw [hit, lookup_upsert]
    · cases lookup (·.binding) b.id db.progress with
      | none => exact (Nat.zero_max seq).symm
      | some p => rfl
    · exact fun _ hp => hp
    · rfl
  case isFalse miss =>
    rw [lookup_upsert_ne miss]
    · exact fun _ hp => hp
    · rfl

namespace Aligned

variable {db db' : Db}

lemma pos (h : Aligned db) : ∀ r ∈ db.samples, 0 < r.sampleSeq := fun r hr => (h.numbered r hr).1

lemma known (h : Aligned db) {b} (mem : b ∈ db.bindings) (pos : 0 < db.examinedSeq b) : Known db b.session (db.examinedSeq b) := by
  unfold Db.examinedSeq at pos ⊢
  cases row : db.progressOf b with
  | none =>
    rw [row] at pos
    cases pos
  | some p =>
    rw [row] at pos
    obtain ⟨hp, key⟩ := lookup_mem row
    rw [(h.owner mem hp key).2]
    exact h.seen p hp pos

lemma join (h : Aligned db) (e : Nat) (f : Binding → CrossingProgress → Nat) :
    total (fun b => (db.progressOf b).elim 0 (f b)) (db.bindingsOf e) =
      total (fun p => (lookup Binding.id p.binding db.bindings).elim 0 fun b => f b p) (db.progressRows e) := by
  have left : ∀ b ∈ db.bindingsOf e, (db.progressOf b).elim 0 (f b) =
      (lookup CrossingProgress.binding b.id (db.progressRows e)).elim 0 (f b) := by
    intro b hb
    obtain ⟨mem, own⟩ := mem_bindingsOf.mp hb
    unfold Db.progressOf Db.progressRows
    rw [lookup_filter fun p hp key => beq_iff_eq.mpr ((h.owner mem hp key).1.symm.trans own)]
  have right : ∀ p ∈ db.progressRows e, ((lookup Binding.id p.binding db.bindings).elim 0 fun b => f b p) =
      (lookup Binding.id p.binding (db.bindingsOf e)).elim 0 fun b => f b p := by
    intro p row
    obtain ⟨hp, own⟩ := mem_progressRows.mp row
    unfold Db.bindingsOf
    rw [lookup_filter fun b mem key => beq_iff_eq.mpr ((h.owner mem hp key.symm).1.trans own)]
  rw [total_congr left, total_congr right]
  refine total_join ?_ ?_
  · exact (List.filter_sublist.map _).nodup h.ids
  · exact (List.filter_sublist.map _).nodup h.keys

lemma binding (h : Aligned db) {p} (hp : p ∈ db.progress) :
    ∃ b, lookup Binding.id p.binding db.bindings = some b ∧ b.session = p.session := by
  obtain ⟨b₀, mem₀, id, -⟩ := h.owned p hp
  obtain ⟨b, found⟩ := lookup_isSome (List.mem_map.mpr ⟨b₀, mem₀, id⟩)
  obtain ⟨mem, key⟩ := lookup_mem found
  exact ⟨b, found, (h.owner mem hp key.symm).2⟩

lemma examinedSeq_lt (h : Aligned db) {b} (mem : b ∈ db.bindings) : db.examinedSeq b < db.nextSampleSeq b.session := by
  rcases Nat.eq_zero_or_pos (db.examinedSeq b) with zero | pos
  · rw [zero]
    exact Nat.succ_pos _
  · obtain ⟨c, mem, hs, le⟩ := h.known mem pos
    exact le.trans_lt (lt_nextSampleSeq mem hs)

section
variable {b : Binding} {seq n : Nat} {g : Bool → Bool}

lemma checkpointed (h : Aligned db) (mem : b ∈ db.bindings) (known : 0 < seq → Known db b.session seq) :
    Aligned (db.checkpointed b seq n g) := by
  refine ⟨h.ids, nodup_upsert (fun _ hp => hp) rfl h.keys, ?_, h.numbered, ?_⟩
  · intro p hp
    rcases mem_upsert hp with old | rfl | ⟨p', hp', -, rfl⟩
    · exact h.owned p old
    · exact ⟨b, mem, rfl, rfl, rfl⟩
    · exact h.owned p' hp'
  · intro p hp pos
    rcases mem_upsert hp with old | rfl | ⟨p', hp', hit, rfl⟩
    · exact h.seen p old pos
    · exact known pos
    have ses := (h.owner mem hp' (of_decide_eq_true hit)).2
    rcases le_total p'.examinedSeq seq with le | le
    · rw [max_eq_right le] at pos ⊢
      exact ses ▸ known pos
    · rw [max_eq_left le] at pos ⊢
      exact h.seen p' hp' pos

lemma lifts_entitlement {e} (h : Aligned db) (mem : b ∈ db.bindings) (lifts : Lifts db e b) : b.entitlement = e := by
  cases lifts with
  | checkpoint first =>
    obtain ⟨p, row, key⟩ := List.mem_map.mp (List.min?_mem first)
    obtain ⟨hp, own⟩ := mem_progressRows.mp row
    exact (h.owner mem hp key).1.trans own
  | binding _ mem' own same =>
    rw [← List.inj_on_of_nodup_map h.ids mem' mem same]
    exact own

/-- What the entitlement of the binding is due changes by what the binding holds up to `seq`. -/
lemma due_checkpointed (h : Aligned db) (mem : b ∈ db.bindings) (e : Nat) :
    (db.checkpointed b seq n g).due e + (if b.entitlement = e then heldUpTo db.samples b (db.examinedSeq b) else 0) =
      db.due e + if b.entitlement = e then heldUpTo db.samples b (max (db.examinedSeq b) seq) else 0 := by
  have others : ∀ b' ∈ db.bindings, b' ≠ b → (db.checkpointed b seq n g).examinedSeq b' = db.examinedSeq b' := by
    intro b' mem' ne
    rw [examinedSeq_checkpointed, if_neg]
    exact fun same => ne (List.inj_on_of_nodup_map h.ids mem' mem same)
  have self : (db.checkpointed b seq n g).examinedSeq b = max (db.examinedSeq b) seq := by
    rw [examinedSeq_checkpointed, if_pos rfl]
  have after : (db.checkpointed b seq n g).due e = total FoldedUsage.bytes (db.foldedOf e .interval) +
      total (fun b' => heldUpTo db.samples b' ((db.checkpointed b seq n g).examinedSeq b')) (db.bindingsOf e) := due_eq h.pos
  rw [after, due_eq h.pos]
  by_cases own : b.entitlement = e
  · have nodup : (db.bindingsOf e).Nodup := (h.ids.of_map _).filter _
    have point := total_point (g := fun b => heldUpTo db.samples b (db.examinedSeq b))
      (m := fun b' => heldUpTo db.samples b' ((db.checkpointed b seq n g).examinedSeq b'))
      (mem_bindingsOf.mpr ⟨mem, own⟩) nodup
      fun b' hb' ne => by simp only [others b' (mem_bindingsOf.mp hb').1 ne]
    simp only [self] at point
    rw [if_pos own, if_pos own]
    omega
  · have same : total (fun b' => heldUpTo db.samples b' ((db.checkpointed b seq n g).examinedSeq b')) (db.bindingsOf e) =
        total (fun b' => heldUpTo db.samples b' (db.examinedSeq b')) (db.bindingsOf e) := by
      refine total_congr fun b' hb' => ?_
      obtain ⟨mem', own'⟩ := mem_bindingsOf.mp hb'
      rw [others b' mem' fun same => own (same ▸ own')]
    rw [if_neg own, if_neg own, same]

lemma counted_checkpointed (h : Aligned db) (mem : b ∈ db.bindings) (e : Nat) :
    total (·.countedBytes) ((db.checkpointed b seq n g).progressRows e) =
      total (·.countedBytes) (db.progressRows e) + if b.entitlement = e then n else 0 := by
  unfold Db.progressRows
  rw [total_filter, total_filter]
  refine total_upsert ?_ ?_
  · intro p hp hit
    have ent := (h.owner mem hp (of_decide_eq_true hit)).1
    simp only [← ent, beq_iff_eq]
    split
    · rfl
    · rfl
  · simp only [beq_iff_eq]

end

end Aligned

namespace Enough

variable {db db' : Db}

lemma frame (h : Enough db) (bindings : db'.bindings = db.bindings) (progress : db'.progress = db.progress)
    (samples : db'.samples = db.samples) (folded : db'.folded = db.folded)
    (remembers : ∀ session, Remembers session db db') : Enough db' where
  ids := bindings ▸ h.ids
  keys := progress ▸ h.keys
  owned := by
    rw [progress, bindings]
    exact h.owned
  numbered := by
    rw [samples]
    exact fun r hr => ⟨h.pos r hr, (h.numbered r hr).2.mono (remembers _)⟩
  seen := by
    rw [progress]
    exact fun p hp zero => (h.seen p hp zero).mono (remembers _)
  enough := by
    intro e
    have examined : db'.examined = db.examined := by
      funext b
      simp only [Db.examined, Db.progressOf, Db.covered, progress, samples]
    have same : db'.due e = db.due e := by
      simp only [Db.due, Db.foldedOf, Db.bindingsOf, examined, bindings, folded]
    rw [same]
    unfold Db.progressRows
    rw [progress]
    exact h.enough e

lemma rebound {f : Binding → Binding} {l : List Binding} (h : Enough db)
    (bindings : db'.bindings = db.bindings.map f ++ l) (progress : db'.progress = db.progress)
    (samples : db'.samples = db.samples) (folded : db'.folded = db.folded) (checkpoints : db'.checkpoints = db.checkpoints)
    (id : ∀ b, (f b).id = b.id) (entitlement : ∀ b, (f b).entitlement = b.entitlement)
    (session : ∀ b, (f b).session = b.session) (covers : ∀ b t, (f b).covers t → b.covers t)
    (nodup : (l.map (·.id)).Nodup) (fresh : ∀ n ∈ l, ∀ b ∈ db.bindings, b.id ≠ n.id) : Enough db' where
  ids := by
    rw [bindings, List.map_append, List.map_map, show (Binding.id ∘ f) = Binding.id from funext id]
    refine List.nodup_append.mpr ⟨h.ids, nodup, ?_⟩
    rintro _ hx _ hy same
    obtain ⟨b, hb, rfl⟩ := List.mem_map.mp hx
    obtain ⟨n, hn, rfl⟩ := List.mem_map.mp hy
    exact fresh n hn b hb same
  keys := progress ▸ h.keys
  owned := by
    rw [progress, bindings]
    intro p hp
    obtain ⟨b, mem, hid, ent, ses⟩ := h.owned p hp
    exact ⟨f b, List.mem_append_left _ (List.mem_map_of_mem mem), (id b).trans hid, (entitlement b).trans ent,
      (session b).trans ses⟩
  numbered := by
    unfold Known
    rw [samples, checkpoints]
    exact h.numbered
  seen := by
    unfold Known
    rw [progress, checkpoints]
    exact h.seen
  enough := by
    intro e
    have examinedSeq : ∀ b, db'.examinedSeq b = db.examinedSeq b := by
      intro b
      unfold Db.examinedSeq Db.progressOf
      rw [progress]
    have unseen : ∀ n ∈ l, db.examinedSeq n = 0 := by
      intro n hn
      unfold Db.examinedSeq
      cases row : db.progressOf n with
      | none => rfl
      | some p =>
        obtain ⟨hp, key⟩ := lookup_mem row
        obtain ⟨b, mem, hid, -⟩ := h.owned p hp
        exact absurd (hid.trans key) (fresh n hn b mem)
    have closed : total (fun b => heldUpTo db.samples b (db.examinedSeq b)) ((db.bindingsOf e).map f) ≤
        total (fun b => heldUpTo db.samples b (db.examinedSeq b)) (db.bindingsOf e) := by
      rw [total_map]
      refine total_le_total fun b _ => ?_
      have same : db.examinedSeq (f b) = db.examinedSeq b := by
        unfold Db.examinedSeq Db.progressOf
        rw [id]
      rw [same]
      exact heldUpTo_le (session b) (covers b)
    have opened : total (fun b => heldUpTo db.samples b (db.examinedSeq b)) (l.filter (·.entitlement == e)) = 0 := by
      refine total_eq_zero fun b hb => ?_
      rw [unseen b (List.mem_filter.mp hb).1, heldUpTo_zero h.pos]
    have before := h.enough e
    rw [due_eq h.pos] at before
    rw [due_eq (samples ▸ h.pos), bindingsOf_rebound bindings entitlement, total_append]
    simp only [examinedSeq, samples]
    unfold Db.progressRows Db.foldedOf at before ⊢
    rw [folded, progress]
    omega

variable {scope : Scope} {e : Nat} {b : Binding}

lemma grown {r cp time} (h : Enough db) (found : db.checkpoint r.series = some cp) :
    Enough (db.draw.recordDelta r.series (db.sampleOf scope r cp time) e r.up r.down) := by
  have remembers : ∀ session, Remembers session db
      (db.draw.recordDelta r.series (db.sampleOf scope r cp time) e r.up r.down) := fun _ => .grown
  have numbered : ∀ x ∈ db.samples ++ [db.sampleOf scope r cp time], 0 < x.sampleSeq ∧
      Known (db.draw.recordDelta r.series (db.sampleOf scope r cp time) e r.up r.down) x.session x.sampleSeq := by
    intro x hx
    rcases List.mem_append.mp hx with old | new
    · exact ⟨h.pos x old, (h.numbered x old).2.mono (remembers _)⟩
    rw [List.mem_singleton.mp new]
    obtain ⟨mem, key⟩ := lookup_mem found
    refine ⟨Nat.succ_pos _, _, List.mem_map_of_mem mem, ?_⟩
    rw [if_pos key]
    exact ⟨congrArg Series.session key, le_rfl⟩
  refine ⟨⟨h.ids, h.keys, h.owned, numbered, fun p hp pos => (h.seen p hp pos).mono (remembers _)⟩, ?_⟩
  intro e'
  have before := h.enough e'
  rw [due_eq h.pos] at before
  rw [due_eq fun x hx => (numbered x hx).1]
  refine le_trans (Nat.add_le_add_left (le_of_eq (total_congr ?_)) _) before
  intro b hb
  refine heldUpTo_snoc fun same => ?_
  have below := h.examinedSeq_lt (mem_bindingsOf.mp hb).1
  rw [← same] at below
  exact below

lemma folded {r} (h : Enough db) (mem : r ∈ db.samples)
    (examined : ∀ b ∈ db.bindings, r.session = b.session → b.covers r.sampledAt → r.sampleSeq ≤ db.examinedSeq b) :
    Enough (db.foldSample scope r) := by
  have sub : ∀ x ∈ db.samples.erase r, x ∈ db.samples := fun _ => List.mem_of_mem_erase
  refine ⟨⟨h.ids, h.keys, h.owned, fun x hx => h.numbered x (sub x hx), h.seen⟩, fun e => ?_⟩
  have before := h.enough e
  rw [due_eq h.pos] at before
  rw [due_eq fun x hx => h.pos x (sub x hx), total_foldSample, total_attribution_interval, Nat.add_assoc]
  refine le_trans (Nat.add_le_add_left (le_of_eq ?_) _) before
  have erased : ∀ b ∈ db.bindingsOf e, heldUpTo db.samples b (db.examinedSeq b) =
      (if r.session == b.session && b.covers r.sampledAt then r.bytes else 0) +
        heldUpTo (db.samples.erase r) b (db.examinedSeq b) := by
    intro b hb
    rw [← heldUpTo_erase mem (examined b (mem_bindingsOf.mp hb).1), Nat.add_comm]
  rw [total_congr erased, total_add]
  rfl

lemma dropped {rows : List FoldedUsage} (h : Enough db) :
    Enough { db with folded := db.folded.filter fun a => !decide (a ∈ rows) } := by
  refine ⟨⟨h.ids, h.keys, h.owned, h.numbered, h.seen⟩, fun e => le_trans ?_ (h.enough e)⟩
  exact Nat.add_le_add_right (total_sublist (List.filter_sublist.filter _)) _

lemma heldUpTo_examine :
    heldUpTo db.samples b (max (db.examinedSeq b) (((db.later b).map (·.sampleSeq)).max?.getD (db.examinedSeq b))) =
      heldUpTo db.samples b (db.examinedSeq b) + total Sample.bytes ((db.later b).filter fun r => b.covers r.sampledAt) := by
  unfold heldUpTo Db.later
  rw [List.filter_filter, total_filter, total_filter, total_filter, ← total_add]
  refine total_congr fun r hr => ?_
  by_cases own : r.session = b.session
  · by_cases covers : b.covers r.sampledAt
    · by_cases le : r.sampleSeq ≤ db.examinedSeq b
      · simp [own, covers, le]
      have mem : r.sampleSeq ∈ (db.later b).map (·.sampleSeq) :=
        List.mem_map_of_mem (List.mem_filter.mpr ⟨hr, by simp [own, Nat.lt_of_not_le le]⟩)
      have top := List.le_max?_getD_of_mem mem (k := db.examinedSeq b)
      unfold Db.later at top
      simp [own, covers, le, top]
    · simp [own, covers]
  · simp [own]

/-- A checkpoint row written keeps the invariant when it is raised by what it is moved past. -/
lemma checkpointed {seq n g} (h : Aligned db) (mem : b ∈ db.bindings) (known : 0 < seq → Known db b.session seq)
    (raised : ∀ e, db.due e + (if b.entitlement = e then heldUpTo db.samples b (max (db.examinedSeq b) seq) else 0) ≤
      total (·.countedBytes) (db.progressRows e) +
        if b.entitlement = e then n + heldUpTo db.samples b (db.examinedSeq b) else 0) : Enough (db.checkpointed b seq n g) := by
  refine ⟨h.checkpointed mem known, fun e => ?_⟩
  rw [h.counted_checkpointed mem e]
  have le := raised e
  rw [← h.due_checkpointed (n := n) (g := g) mem e] at le
  split at le
  case isTrue own =>
    rw [if_pos own]
    omega
  case isFalse other =>
    rw [if_neg other]
    exact le

lemma examine {final} (h : Enough db) (mem : b ∈ db.bindings) : Enough (db.examine b.entitlement b final) := by
  refine checkpointed (g := fun _ => final) h.toAligned mem ?_ fun e => ?_
  · intro pos
    cases top : ((db.later b).map (·.sampleSeq)).max? with
    | none =>
      rw [top, Option.getD_none] at pos
      exact h.known mem pos
    | some m =>
      obtain ⟨r, hr, rfl⟩ := List.mem_map.mp (List.max?_mem top)
      obtain ⟨raw, own⟩ := List.mem_filter.mp hr
      simp only [Bool.and_eq_true, beq_iff_eq] at own
      exact own.1 ▸ (h.numbered r raw).2
  · have before := h.enough e
    rw [heldUpTo_examine]
    split
    · omega
    · exact before

lemma lift (h : Aligned db) (mem : b ∈ db.bindings)
    (others : ∀ e, e ≠ b.entitlement → db.due e ≤ total (·.countedBytes) (db.progressRows e)) :
    Enough (db.lift b.entitlement b (db.lack b.entitlement)) := by
  have same : db.lift b.entitlement b (db.lack b.entitlement) = db.checkpointed b 0 (db.lack b.entitlement) id := by
    unfold Db.lift Db.checkpointed
    simp only [Nat.max_zero, id_eq]
  rw [same]
  refine checkpointed h mem (fun pos => absurd pos (lt_irrefl 0)) fun e => ?_
  rw [Nat.max_zero]
  split
  case isTrue own =>
    subst own
    unfold Db.lack
    omega
  case isFalse other => exact others e (Ne.symm other)

lemma gapCharged {gap records n t} (h : Enough db)
    (bound : ∃ b ∈ db.bindings, b.entitlement = e) (exists_entitlement : db.entitlements.any (·.id == e) = true)
    (reconciled : Commits (reconcileCrossingCheckpoint e) (db.chargeGap scope e t gap records) n db') : Enough db' := by
  have aligned : Aligned (db.chargeGap scope e t gap records) := ⟨h.ids, h.keys, h.owned, h.numbered, h.seen⟩
  have others : ∀ e', e' ≠ e → (db.chargeGap scope e t gap records).due e' ≤
      total (·.countedBytes) ((db.chargeGap scope e t gap records).progressRows e') := by
    intro e' ne
    have folded : total FoldedUsage.bytes ((db.chargeGap scope e t gap records).foldedOf e' .interval) =
        total FoldedUsage.bytes (db.foldedOf e' .interval) := by
      unfold Db.foldedOf
      rw [total_filter, total_filter]
      refine total_upsert (d := 0) ?_ (if_neg ?_)
      · intro a _ hit
        have key : a.entitlement = e := congrArg Prod.fst (of_decide_eq_true hit)
        simp [key, Ne.symm ne]
      · simp [Ne.symm ne]
    have before := h.enough e'
    unfold Db.due at before ⊢
    rw [folded]
    exact before
  rcases reconcile_commits reconciled with ⟨b, mem, lifts, rfl⟩ | ⟨rfl, none⟩
  · obtain rfl := aligned.lifts_entitlement mem lifts
    exact lift aligned mem others
  refine ⟨aligned, fun e' => ?_⟩
  by_cases own : e' = e
  · subst own
    exact Nat.sub_eq_zero_iff_le.mp (none exists_entitlement bound)
  · exact others e' own

lemma total_recounted (h : Aligned db) : total db.recounted (db.progressRows e) = total db.examined (db.bindingsOf e) := by
  refine Eq.trans (total_congr fun p row => ?_) (h.join e _).symm
  obtain ⟨b, found, own⟩ := h.binding (mem_progressRows.mp row).1
  rw [found, Option.elim_some]
  unfold Db.recounted Db.covered
  rw [found, List.filter_filter]
  congr 2
  funext r
  rw [← own, Option.any_some]
  cases r.session == b.session <;> cases b.covers r.sampledAt <;> simp

lemma le_total_carried (ne : db.progressRows e ≠ []) :
    total FoldedUsage.bytes (db.foldedOf e .interval) ≤ total (db.carried e) (db.progressRows e) := by
  cases first : db.firstCheckpoint e with
  | none =>
    rw [Db.firstCheckpoint, List.min?_eq_none_iff, List.map_eq_nil_iff] at first
    exact absurd first ne
  | some k =>
    obtain ⟨p, row, key⟩ := List.mem_map.mp (List.min?_mem first)
    refine le_trans (le_of_eq ?_) (le_total row)
    unfold Db.carried
    rw [if_pos (first.trans (congrArg some key.symm))]

lemma recount (h : Enough db) : Enough (db.recount e) := by
  let f : CrossingProgress → CrossingProgress := fun p =>
    if p.entitlement = e then { p with countedBytes := db.recounted p + db.carried e p } else p
  have binding : ∀ p, (f p).binding = p.binding := fun p => by simp only [f]; split <;> rfl
  have entitlement : ∀ p, (f p).entitlement = p.entitlement := fun p => by simp only [f]; split <;> rfl
  have session : ∀ p, (f p).session = p.session := fun p => by simp only [f]; split <;> rfl
  have examinedSeq : ∀ p, (f p).examinedSeq = p.examinedSeq := fun p => by simp only [f]; split <;> rfl
  have rows : ∀ e', (db.recount e).progressRows e' = (db.progressRows e').map f := by
    intro e'
    unfold Db.progressRows
    rw [show (db.recount e).progress = db.progress.map f from rfl, List.filter_map]
    congr 2
    funext p
    simp only [Function.comp_apply, entitlement]
  have aligned : Aligned (db.recount e) := by
    refine ⟨h.ids, ?_, ?_, h.numbered, ?_⟩
    · rw [show (db.recount e).progress = db.progress.map f from rfl, List.map_map,
        show CrossingProgress.binding ∘ f = CrossingProgress.binding from funext binding]
      exact h.keys
    · intro p' hp'
      obtain ⟨p, hp, rfl⟩ := List.mem_map.mp hp'
      obtain ⟨b, mem, id, ent, ses⟩ := h.owned p hp
      exact ⟨b, mem, id.trans (binding p).symm, ent.trans (entitlement p).symm, ses.trans (session p).symm⟩
    · intro p' hp' pos
      obtain ⟨p, hp, rfl⟩ := List.mem_map.mp hp'
      rw [session, examinedSeq]
      exact h.seen p hp (examinedSeq p ▸ pos)
  have due : ∀ e', (db.recount e).due e' = db.due e' := by
    intro e'
    have same : (db.recount e).examined = db.examined := by
      funext b
      unfold Db.examined Db.progressOf
      rw [show (db.recount e).progress = db.progress.map f from rfl, lookup_map binding]
      cases lookup (·.binding) b.id db.progress with
      | none => rfl
      | some p =>
        simp only [Option.map_some, Option.elim_some, examinedSeq]
        rfl
    unfold Db.due
    rw [same]
    rfl
  refine ⟨aligned, fun e' => ?_⟩
  rw [due, rows, total_map]
  have before := h.enough e'
  by_cases own : e' = e
  · subst own
    have counted : total (fun p => (f p).countedBytes) (db.progressRows e') =
        total db.recounted (db.progressRows e') + total (db.carried e') (db.progressRows e') := by
      rw [← total_add]
      refine total_congr fun p row => ?_
      simp only [f, if_pos (mem_progressRows.mp row).2]
    rw [counted, total_recounted h.toAligned]
    by_cases ne : db.progressRows e' = []
    · rw [ne, total_nil] at before
      omega
    · have carried := le_total_carried ne
      unfold Db.due
      omega
  · refine before.trans (le_of_eq (total_congr fun p row => ?_))
    simp only [f, if_neg fun h => own ((mem_progressRows.mp row).2.symm.trans h)]

end Enough

section
variable {b : Binding} {session : Nat} {t : Int}

@[simp] lemma closed_id : (b.closed session t).id = b.id := by unfold Binding.closed; split <;> rfl

@[simp] lemma closed_entitlement : (b.closed session t).entitlement = b.entitlement := by
  unfold Binding.closed; split <;> rfl

@[simp] lemma closed_session : (b.closed session t).session = b.session := by unfold Binding.closed; split <;> rfl

lemma covers_of_closed {t'} (h : (b.closed session t).covers t') : b.covers t' := by
  unfold Binding.closed at h
  split at h
  case isTrue opened =>
    simp only [Binding.covers, decide_eq_true_eq] at h ⊢
    exact ⟨h.1, by rw [opened.2]; rfl⟩
  case isFalse => exact h

end

/-- A purge folds only samples that the checkpoints of their bindings have examined. -/
def AcctOp.examinedFirst (db : Db) : AcctOp → Prop
  | .purge _ _ picked => ∀ r ∈ picked.raw.flatten, ∀ b ∈ db.bindings, r.session = b.session → b.covers r.sampledAt →
    r.sampleSeq ≤ db.examinedSeq b
  | _ => True

instance (db : Db) (op : AcctOp) : Decidable (op.examinedFirst db) := by
  cases op <;> unfold AcctOp.examinedFirst <;> infer_instance

lemma AcctMove.examinedFirst (move : AcctMove op db db') (first : op.examinedFirst db) : op.examinedFirst db' := by
  cases op with
  | purge scope batch picked =>
    cases move
    case folded => exact first
    case hoursDropped => exact first
    case foldedDropped => exact first
    case baselined none _ _ => cases none
    case rebased none _ _ _ => cases none
    all_goals contradiction
  | _ => trivial

lemma Enough.move (h : Enough db) (move : AcctMove op db db') (first : op.examinedFirst db) : Enough db' := by
  have remembers := move.remembers
  cases move with
  | baselined | rebased | rolledUp | hoursDropped | crossed => exact h.frame rfl rfl rfl rfl remembers
  | grown _ _ _ _ _ found => exact h.grown found
  | opened _ _ fresh =>
    refine h.rebound (f := id) (l := [_]) (by rw [List.map_id]; rfl) rfl rfl rfl rfl (fun _ => rfl) (fun _ => rfl) (fun _ => rfl)
      (fun _ _ hc => hc) (List.nodup_singleton _) ?_
    intro n hn
    rw [List.mem_singleton.mp hn]
    exact fresh
  | @ended session t reason =>
    by_cases live : db.sessions.any fun s => s.id == session && s.ended.isNone
    · refine h.rebound (f := (·.closed session t)) (l := []) ?_ rfl rfl rfl rfl (fun _ => closed_id)
        (fun _ => closed_entitlement) (fun _ => closed_session) (fun _ _ => covers_of_closed) List.nodup_nil
        fun n hn => absurd hn List.not_mem_nil
      rw [List.append_nil]
      exact if_pos live
    · exact h.frame (if_neg live) rfl rfl rfl remembers
  | relocated same | statusSet same | ticked same => subst same; exact h.frame rfl rfl rfl rfl remembers
  | @moved session e t _ movable =>
    refine h.rebound rfl rfl rfl rfl rfl (fun _ => closed_id) (fun _ => closed_entitlement) (fun _ => closed_session)
      (fun _ _ => covers_of_closed) (List.nodup_singleton _) ?_
    intro n hn
    rw [List.mem_singleton.mp hn]
    exact movable.fresh
  | gapCharged _ _ _ _ bound exists_entitlement reconciled => exact h.gapCharged bound exists_entitlement reconciled
  | folded same picked mem => subst same; exact h.folded mem (first _ picked)
  | foldedDropped => exact h.dropped
  | examined _ mem own => subst own; exact h.examine mem
  | recounted => exact h.recount

lemma Enough.apply (h : Enough db) (first : op.examinedFirst db) : Enough (op.apply db) :=
  (Prog.keep (S := fun db => Enough db ∧ op.examinedFirst db)
    (fun move ih => ⟨ih.1.move move ih.2, move.examinedFirst ih.2⟩) (apply_moves op db) ⟨h, first⟩).1

lemma Enough.attributed_le (h : Enough db) (e : Nat) : db.attributed e ≤ total db.estimateOf (db.bindingsOf e) := by
  have counted : total (fun b => (db.progressOf b).elim 0 (·.countedBytes)) (db.bindingsOf e) =
      total (·.countedBytes) (db.progressRows e) := by
    rw [h.join e fun _ p => p.countedBytes]
    refine total_congr fun p row => ?_
    obtain ⟨b, found, -⟩ := h.binding (mem_progressRows.mp row).1
    rw [found, Option.elim_some]
  have held : ∀ b ∈ db.bindingsOf e, total Sample.bytes (db.covered b) =
      heldUpTo db.samples b (db.examinedSeq b) + total Sample.bytes (db.tail b) := by
    intro b _
    rw [← total_filter_add fun r : Sample => decide (r.sampleSeq ≤ db.examinedSeq b)]
    unfold heldUpTo Db.tail Db.covered
    rw [List.filter_filter, List.filter_filter, List.filter_filter]
    congr 3
    · funext r
      exact Bool.and_comm _ _
    · funext r
      rw [← decide_not]
      simp only [not_le]
      rfl
  have before := h.enough e
  rw [due_eq h.pos] at before
  unfold Db.attributed Db.attributedSamples Db.estimateOf
  rw [total_flatMap, total_congr held, total_add, total_add, counted]
  omega

/-- The tables before any accounting. -/
structure Unaccounted (db : Db) : Prop where
  bindings : db.bindings = []
  samples : db.samples = []
  progress : db.progress = []
  folded : db.folded = []

lemma Unaccounted.enough (h : Unaccounted db) : Enough db := by
  refine ⟨⟨?_, ?_, ?_, ?_, ?_⟩, fun e => ?_⟩
  iterate 5 simp [h.bindings, h.progress, h.samples]
  unfold Db.due Db.foldedOf Db.bindingsOf
  rw [h.folded, h.bindings]
  exact Nat.zero_le _

/-- The incremental crossing never understates. In every run from unaccounted tables in which a purge folds only
samples that the checkpoints of their bindings have examined, an entitlement whose attributed bytes have
reached its positive quota has a crossing instant. -/
theorem crossing_found_when_examined_first {start db : Db} {ops : List AcctOp} (fresh : Unaccounted start)
    (run : Run (fun db op db' => op.examinedFirst db ∧ acctStep db op db') start ops db) {e : Nat} {q : Int}
    (quota : db.quota e = some q) (pos : 0 < q) (reached : q ≤ db.attributed e) : (db.p6DataCrossing e).isSome := by
  have enough : Enough db := run.invariant (fun step h => step.2 ▸ h.apply step.1) fresh.enough
  have estimate := enough.attributed_le e
  have full : (db.p6DataCrossingFull e).isSome := by
    rw [Option.isSome_iff_ne_none]
    intro none
    have := (p6DataCrossingFull_eq_none_iff quota (.inl pos)).mp none
    omega
  unfold Db.p6DataCrossing
  rw [quota, Option.bind_some]
  split
  · rfl
  · rw [if_neg (by omega)]
    exact full

/-- The guest carries 100 bytes; three days later they are rolled up. -/
def hundredBytes : List AcctOp :=
  [.openSession guest, .ingest (observe 1 0 0 0), .ingest (observe 1 60 40 5), .clock (3 * day), .rollup ⟨1, 1⟩ day]

def purgeAll : AcctOp := .purge ⟨1, 1⟩ 100 ⟨[[⟨101, ⟨1, 1⟩, 1, 1, 60, 40, 5, 0⟩]], [], []⟩

theorem crossing_found_after_advance : ∃ db,
    Run (fun db op db' => op.examinedFirst db ∧ acctStep db op db') site (hundredBytes ++ [.advance ⟨1, 1⟩, purgeAll]) db ∧
      db.samples = [] ∧ (db.p6DataCrossing 1).isSome := by
  obtain ⟨db, run, h⟩ := exists_guarded (f := AcctOp.apply) (G := fun db op => op.examinedFirst db) (s := site)
    (l := hundredBytes ++ [.advance ⟨1, 1⟩, purgeAll])
    (P := fun db => decide (db.samples = []) && decide (db.quota 1 = some 100) && decide (100 ≤ db.attributed 1))
    (by decide +kernel)
  simp only [Bool.and_eq_true, decide_eq_true_eq] at h
  exact ⟨db, run, h.1.1, crossing_found_when_examined_first ⟨rfl, rfl, rfl, rfl⟩ run h.1.2 (by decide) (by exact_mod_cast h.2)⟩

/-- A purge that comes before the checkpoint has examined the sample hides the crossing for good. -/
theorem purge_hides_crossing : ∃ db, Run acctStep site (hundredBytes ++ [purgeAll, .advance ⟨1, 1⟩]) db ∧
    Unaccounted site ∧ db.quota 1 = some 100 ∧ db.attributed 1 = 100 ∧ db.p6DataCrossing 1 = none :=
  ⟨_, run_foldl site _, ⟨rfl, rfl, rfl, rfl⟩, by decide +kernel, by decide +kernel, by decide +kernel⟩

end StayConnect.Iam
