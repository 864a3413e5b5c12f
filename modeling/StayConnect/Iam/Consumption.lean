import StayConnect.Iam.Crossing

/-!
# The consumed counter and the attributed usage

`consumed_data_bytes` advances at ingestion, for the binding in force at the sample's instant;
`p3_entitlement_data_usage` is derived from the bindings as they are now. `share db e r` is what the derivation
gives the entitlement `e` of the raw sample `r`; a change of the bindings that leaves every share as it was
keeps the two in step. `Timelines` is what makes a sample belong to one binding: the intervals of a session
follow one another.
-/

namespace StayConnect.Iam
open Keyed Tx Relation Transition

/-- What `p3_entitlement_data_usage` gives the entitlement of a raw sample. -/
def Db.share (db : Db) (e : Nat) (r : Sample) : Nat :=
  total (fun b => if db.charged b r then r.bytes else 0) (db.bindingsOf e)

/-- The binding intervals of a session follow one another, and only the last one may be open. -/
structure Timelines (bs : List Binding) : Prop where
  ids : (bs.map (·.id)).Nodup
  seqs : ∀ b ∈ bs, ∀ b' ∈ bs, b.session = b'.session → b.seq = b'.seq → b = b'
  forward : ∀ b ∈ bs, ∀ u, b.boundUntil = some u → b.boundFrom ≤ u
  ordered : ∀ b ∈ bs, ∀ b' ∈ bs, b.session = b'.session → b.seq < b'.seq → ∃ u, b.boundUntil = some u ∧ u ≤ b'.boundFrom

structure Consumed (db : Db) : Prop where
  timelines : Timelines db.bindings
  known : ∀ r ∈ db.samples, ∃ s ∈ db.sessions, s.id = r.session
  consumed : ∀ x ∈ db.entitlements, x.consumedDataBytes = db.p3EntitlementDataUsage x.id

section
variable {db : Db} {e : Nat}

lemma p3EntitlementDataUsage_eq : db.p3EntitlementDataUsage e =
    total FoldedUsage.bytes (db.foldedOf e .interval) + total FoldedUsage.bytes (db.foldedOf e .closingInstant) +
      total (db.share e) db.samples := by
  unfold Db.p3EntitlementDataUsage Db.share
  congr 1
  rw [total_comm]
  exact total_congr fun b _ => total_filter

variable {b : Binding} {t : Int} {r : Sample}

lemma covers_iff : b.covers t = true ↔ b.boundFrom ≤ t ∧ ∀ u, b.boundUntil = some u → t < u := by
  unfold Binding.covers
  rw [decide_eq_true_eq]
  cases b.boundUntil <;> simp

lemma closesAt_iff : b.closesAt t = true ↔ b.boundFrom ≤ t ∧ b.boundUntil = some t := by
  unfold Binding.closesAt
  rw [decide_eq_true_eq]

lemma Timelines.unique {b'} (h : Timelines db.bindings) (mem : b ∈ db.bindings) (mem' : b' ∈ db.bindings)
    (same : b.session = b'.session) (covers : b.covers t) (covers' : b'.covers t) : b = b' := by
  have hb := covers_iff.mp covers
  have hb' := covers_iff.mp covers'
  rcases lt_trichotomy b.seq b'.seq with lt | eq | lt
  · obtain ⟨u, hu, le⟩ := h.ordered b mem b' mem' same lt
    have := hb.2 u hu
    omega
  · exact h.seqs b mem b' mem' same eq
  · obtain ⟨u, hu, le⟩ := h.ordered b' mem' b mem same.symm lt
    have := hb'.2 u hu
    omega

lemma bound_iff {session} : db.bound session t = true ↔ ∃ b ∈ db.bindings, b.session = session ∧ b.covers t := by
  unfold Db.bound
  simp [List.any_eq_true]

lemma charged_iff : db.charged b r = true ↔
    r.session = b.session ∧ (b.covers r.sampledAt ∨ (b.closesAt r.sampledAt ∧ db.bound r.session r.sampledAt = false)) := by
  unfold Db.charged
  simp

lemma Timelines.charged_iff_eq {b'} (h : Timelines db.bindings) (mem : b ∈ db.bindings)
    (own : b.session = r.session) (covers : b.covers r.sampledAt) (mem' : b' ∈ db.bindings) : db.charged b' r = true ↔ b' = b := by
  rw [charged_iff, bound_iff.mpr ⟨b, mem, own, covers⟩]
  constructor
  · rintro ⟨own', covers' | ⟨-, no⟩⟩
    · exact h.unique mem' mem (own'.symm.trans own.symm) covers' covers
    · cases no
  · rintro rfl
    exact ⟨own.symm, .inl covers⟩

lemma Timelines.share_eq (h : Timelines db.bindings) (mem : b ∈ db.bindings) (own : b.session = r.session)
    (covers : b.covers r.sampledAt) : db.share e r = if b.entitlement = e then r.bytes else 0 := by
  have only : ∀ b' ∈ db.bindings, (db.charged b' r = true ↔ b' = b) := fun _ => h.charged_iff_eq mem own covers
  unfold Db.share
  split
  case isTrue ent =>
    have nodup : (db.bindingsOf e).Nodup := (h.ids.of_map _).filter _
    have point := total_point (g := fun _ => 0) (m := fun b => if db.charged b r then r.bytes else 0)
      (mem_bindingsOf.mpr ⟨mem, ent⟩) nodup
      fun b' hb' ne => if_neg fun c => ne ((only b' (mem_bindingsOf.mp hb').1).mp c)
    rw [total_eq_zero fun _ _ => rfl, if_pos ((only b mem).mpr rfl)] at point
    omega
  case isFalse other =>
    refine total_eq_zero fun b' hb' => if_neg fun c => ?_
    obtain ⟨mem', ent'⟩ := mem_bindingsOf.mp hb'
    exact other ((only b' mem').mp c ▸ ent')

end

section
variable {b : Binding} {session : Nat} {t : Int}

@[simp] lemma closed_seq : (b.closed session t).seq = b.seq := by unfold Binding.closed; split <;> rfl

@[simp] lemma closed_boundFrom : (b.closed session t).boundFrom = b.boundFrom := by unfold Binding.closed; split <;> rfl

lemma closed_of_ne (ne : b.session ≠ session) : b.closed session t = b := by
  unfold Binding.closed
  rw [if_neg fun h => ne h.1]

lemma closed_of_some {u} (closed : b.boundUntil = some u) : b.closed session t = b := by
  unfold Binding.closed
  rw [if_neg]
  rw [closed]
  exact fun h => by cases h.2

lemma closed_of_open (own : b.session = session) (opened : b.boundUntil = none) :
    b.closed session t = { b with boundUntil := some (max t b.boundFrom) } := by
  unfold Binding.closed
  rw [if_pos ⟨own, opened⟩]

end

namespace Timelines

variable {bs : List Binding} {session : Nat} {t : Int}

lemma close (h : Timelines bs) : Timelines (bs.map (·.closed session t)) where
  ids := by
    rw [List.map_map, show Binding.id ∘ (·.closed session t) = Binding.id from funext fun _ => closed_id]
    exact h.ids
  seqs := by
    rintro _ hb _ hb' same seq
    obtain ⟨b, mem, rfl⟩ := List.mem_map.mp hb
    obtain ⟨b', mem', rfl⟩ := List.mem_map.mp hb'
    simp only [closed_session, closed_seq] at same seq
    rw [h.seqs b mem b' mem' same seq]
  forward := by
    rintro _ hb u hu
    obtain ⟨b, mem, rfl⟩ := List.mem_map.mp hb
    rw [closed_boundFrom]
    unfold Binding.closed at hu
    split at hu
    · cases hu
      exact le_max_right _ _
    · exact h.forward b mem u hu
  ordered := by
    rintro _ hb _ hb' same lt
    obtain ⟨b, mem, rfl⟩ := List.mem_map.mp hb
    obtain ⟨b', mem', rfl⟩ := List.mem_map.mp hb'
    simp only [closed_session, closed_seq] at same lt
    obtain ⟨u, hu, le⟩ := h.ordered b mem b' mem' same lt
    rw [closed_of_some hu, closed_boundFrom]
    exact ⟨u, hu, le⟩

lemma snoc {n} (h : Timelines bs) (fresh : ∀ b ∈ bs, b.id ≠ n.id) (opened : n.boundUntil = none)
    (after : ∀ b ∈ bs, b.session = n.session → b.seq < n.seq ∧ ∃ u, b.boundUntil = some u ∧ u ≤ n.boundFrom) :
    Timelines (bs ++ [n]) where
  ids := by
    rw [List.map_append]
    refine List.nodup_append.mpr ⟨h.ids, List.nodup_singleton _, ?_⟩
    rintro _ hx _ hy same
    obtain ⟨b, mem, rfl⟩ := List.mem_map.mp hx
    exact fresh b mem (same.trans (List.mem_singleton.mp hy))
  seqs := by
    intro b hb b' hb' same seq
    rcases List.mem_append.mp hb with mem | new <;> rcases List.mem_append.mp hb' with mem' | new'
    · exact h.seqs b mem b' mem' same seq
    · have := (after b mem (List.mem_singleton.mp new' ▸ same)).1
      rw [List.mem_singleton.mp new'] at seq
      omega
    · have := (after b' mem' (List.mem_singleton.mp new ▸ same.symm)).1
      rw [List.mem_singleton.mp new] at seq
      omega
    · rw [List.mem_singleton.mp new, List.mem_singleton.mp new']
  forward := by
    intro b hb u hu
    rcases List.mem_append.mp hb with mem | new
    · exact h.forward b mem u hu
    · rw [List.mem_singleton.mp new, opened] at hu
      cases hu
  ordered := by
    intro b hb b' hb' same lt
    rcases List.mem_append.mp hb with mem | new <;> rcases List.mem_append.mp hb' with mem' | new'
    · exact h.ordered b mem b' mem' same lt
    · rw [List.mem_singleton.mp new'] at same ⊢
      exact (after b mem same).2
    · have := (after b' mem' (List.mem_singleton.mp new ▸ same.symm)).1
      rw [List.mem_singleton.mp new] at lt
      omega
    · rw [List.mem_singleton.mp new, List.mem_singleton.mp new'] at lt
      omega

lemma move {db e} (h : Timelines db.bindings) (movable : Movable db session e t) :
    Timelines (db.draw.moved session e t (db.uuid db.drawn)).bindings := by
  refine h.close.snoc ?_ rfl ?_
  · intro b hb
    obtain ⟨b, mem, rfl⟩ := List.mem_map.mp hb
    rw [closed_id]
    exact movable.fresh b mem
  · intro b hb own
    obtain ⟨b, mem, rfl⟩ := List.mem_map.mp hb
    rw [closed_session] at own
    rw [closed_seq]
    cases head : db.headBinding session with
    | none =>
      have empty := List.argmax_eq_none.mp head
      exact absurd (List.mem_filter.mpr ⟨mem, by simpa using own⟩) (empty ▸ List.not_mem_nil)
    | some last =>
      have le : b.seq ≤ last.seq := List.le_of_mem_argmax (List.mem_filter.mpr ⟨mem, by simpa using own⟩) head
      obtain ⟨mem', own'⟩ := List.mem_filter.mp (List.argmax_mem head)
      have own' : last.session = session := by simpa using own'
      have headMovable := movable.head
      rw [head, Option.all_some] at headMovable
      have closed : ∀ u, last.boundUntil = some u → u ≤ t := by
        intro u hu
        rw [hu, Option.all_some] at headMovable
        exact of_decide_eq_true headMovable
      have began : last.boundFrom ≤ t := by
        cases shut : last.boundUntil with
        | none => exact movable.openBefore last mem' own' shut
        | some u => exact (h.forward last mem' u shut).trans (closed u shut)
      change b.seq < (db.headBinding session).elim 0 (·.seq) + 1 ∧ ∃ u, (b.closed session t).boundUntil = some u ∧ u ≤ t
      rw [head, Option.elim_some]
      refine ⟨Nat.lt_succ_of_le le, ?_⟩
      by_cases hit : b = last
      · subst hit
        cases shut : b.boundUntil with
        | none =>
          rw [closed_of_open own shut]
          exact ⟨_, rfl, max_le le_rfl began⟩
        | some u =>
          rw [closed_of_some shut]
          exact ⟨u, shut, closed u shut⟩
      · have lt : b.seq < last.seq := lt_of_le_of_ne le fun same => hit (h.seqs b mem last mem' (own.trans own'.symm) same)
        obtain ⟨u, hu, before⟩ := h.ordered b mem last mem' (own.trans own'.symm) lt
        rw [closed_of_some hu]
        exact ⟨u, hu, before.trans began⟩

end Timelines

section
variable {b : Binding} {session : Nat} {t s : Int}

lemma covers_closed_of_lt (lt : s < max t b.boundFrom) : (b.closed session t).covers s = b.covers s := by
  unfold Binding.closed
  split
  case isFalse => rfl
  case isTrue opened =>
    rw [Bool.eq_iff_iff, covers_iff, covers_iff, opened.2]
    simp only [Option.some.injEq, reduceCtorEq, false_imp_iff, implies_true, and_true, forall_eq']
    exact ⟨fun h => h.1, fun h => ⟨h, lt⟩⟩

lemma closesAt_closed_of_lt (lt : s < max t b.boundFrom) : (b.closed session t).closesAt s = b.closesAt s := by
  unfold Binding.closed
  split
  case isFalse => rfl
  case isTrue opened =>
    rw [Bool.eq_iff_iff, closesAt_iff, closesAt_iff, opened.2]
    simp only [Option.some.injEq, reduceCtorEq, and_false, iff_false, not_and]
    exact fun _ same => absurd same (ne_of_gt lt)

end

section
variable {db db' : Db} {r : Sample}

lemma share_rebound {f l} (bindings : db'.bindings = db.bindings.map f ++ l) (entitlement : ∀ b, (f b).entitlement = b.entitlement)
    (same : ∀ b ∈ db.bindings, db'.charged (f b) r = db.charged b r) (none : ∀ n ∈ l, db'.charged n r = false) (e : Nat) :
    db'.share e r = db.share e r := by
  have opened : total (fun b => if db'.charged b r then r.bytes else 0) (l.filter (·.entitlement == e)) = 0 := by
    refine total_eq_zero fun n hn => ?_
    rw [none n (List.mem_filter.mp hn).1]
    rfl
  unfold Db.share
  rw [bindingsOf_rebound bindings entitlement, total_append, total_map, opened, Nat.add_zero]
  refine total_congr fun b hb => ?_
  rw [same b (mem_bindingsOf.mp hb).1]

lemma charged_rebound {f l} (bindings : db'.bindings = db.bindings.map f ++ l) (session : ∀ b, (f b).session = b.session)
    (covers : ∀ b ∈ db.bindings, b.session = r.session → (f b).covers r.sampledAt = b.covers r.sampledAt)
    (closesAt : ∀ b ∈ db.bindings, b.session = r.session → (f b).closesAt r.sampledAt = b.closesAt r.sampledAt)
    (later : ∀ n ∈ l, n.session = r.session → n.covers r.sampledAt = false ∧ n.closesAt r.sampledAt = false) :
    (∀ b ∈ db.bindings, db'.charged (f b) r = db.charged b r) ∧ ∀ n ∈ l, db'.charged n r = false := by
  have bound : db'.bound r.session r.sampledAt = db.bound r.session r.sampledAt := by
    rw [Bool.eq_iff_iff, bound_iff, bound_iff, bindings]
    constructor
    · rintro ⟨b', mem, own, hc⟩
      rcases List.mem_append.mp mem with old | new
      · obtain ⟨b, hb, rfl⟩ := List.mem_map.mp old
        rw [session] at own
        exact ⟨b, hb, own, covers b hb own ▸ hc⟩
      · rw [(later b' new own).1] at hc
        cases hc
    · rintro ⟨b, mem, own, hc⟩
      exact ⟨f b, List.mem_append_left _ (List.mem_map_of_mem mem), (session b).trans own, (covers b mem own).symm ▸ hc⟩
  constructor
  · intro b mem
    unfold Db.charged
    rw [session, bound]
    by_cases own : b.session = r.session
    · rw [covers b mem own, closesAt b mem own]
    · rw [beq_false_of_ne (Ne.symm own), Bool.false_and, Bool.false_and]
  · intro n hn
    unfold Db.charged
    by_cases own : n.session = r.session
    · rw [(later n hn own).1, (later n hn own).2, Bool.false_and, Bool.or_false, Bool.and_false]
    · rw [beq_false_of_ne (Ne.symm own), Bool.false_and]

/-- The last interval of a session closes at the very instant of a sample: the closing instant takes it over. -/
lemma charged_at_end {b₀ b} (h : Timelines db.bindings)
    (bindings : db'.bindings = db.bindings.map (·.closed r.session r.sampledAt) ++ []) (mem₀ : b₀ ∈ db.bindings)
    (own₀ : b₀.session = r.session) (opened : b₀.boundUntil = none) (began : b₀.boundFrom < r.sampledAt)
    (mem : b ∈ db.bindings) : db'.charged (b.closed r.session r.sampledAt) r = db.charged b r := by
  have covers₀ : b₀.covers r.sampledAt = true := covers_iff.mpr ⟨began.le, fun u hu => by rw [opened] at hu; cases hu⟩
  have closed₀ : b₀.closed r.session r.sampledAt = { b₀ with boundUntil := some r.sampledAt } := by
    rw [closed_of_open own₀ opened, max_eq_left began.le]
  -- every other interval of the session ended before this one began
  have others : ∀ b ∈ db.bindings, b.session = r.session → b ≠ b₀ → ∃ u, b.boundUntil = some u ∧ u < r.sampledAt := by
    intro b mem own ne
    rcases lt_trichotomy b.seq b₀.seq with lt | eq | lt
    · obtain ⟨u, hu, le⟩ := h.ordered b mem b₀ mem₀ (own.trans own₀.symm) lt
      exact ⟨u, hu, le.trans_lt began⟩
    · exact absurd (h.seqs b mem b₀ mem₀ (own.trans own₀.symm) eq) ne
    · obtain ⟨u, hu, -⟩ := h.ordered b₀ mem₀ b mem (own₀.trans own.symm) lt
      rw [opened] at hu
      cases hu
  have unbound : db'.bound r.session r.sampledAt = false := by
    rw [Bool.eq_false_iff, ne_eq, bound_iff, bindings, List.append_nil]
    rintro ⟨b', mem', own', covers⟩
    obtain ⟨b, mem, rfl⟩ := List.mem_map.mp mem'
    rw [closed_session] at own'
    by_cases hit : b = b₀
    · subst hit
      rw [closed₀, covers_iff] at covers
      exact absurd (covers.2 _ rfl) (lt_irrefl _)
    · obtain ⟨u, hu, lt⟩ := others b mem own' hit
      rw [closed_of_some hu, covers_iff] at covers
      exact absurd (covers.2 u hu) (not_lt.mpr lt.le)
  rw [Bool.eq_iff_iff, h.charged_iff_eq mem₀ own₀ covers₀ mem, charged_iff, unbound, closed_session]
  constructor
  · rintro ⟨own, hit⟩
    by_contra ne
    obtain ⟨u, hu, lt⟩ := others b mem own.symm ne
    rw [closed_of_some hu] at hit
    rcases hit with covers | ⟨closes, -⟩
    · exact absurd ((covers_iff.mp covers).2 u hu) (not_lt.mpr lt.le)
    · have := (closesAt_iff.mp closes).2
      rw [hu] at this
      exact absurd (Option.some.inj this) (ne_of_lt lt)
  · rintro rfl
    rw [closed₀]
    exact ⟨own₀.symm, .inr ⟨closesAt_iff.mpr ⟨began.le, rfl⟩, rfl⟩⟩

/-- A session that does not end before a sample of it leaves the sample where it was. -/
lemma share_ended {t} (h : Timelines db.bindings) (bindings : db'.bindings = db.bindings.map (·.closed r.session t) ++ [])
    (kept : ∀ b ∈ db.bindings, b.session = r.session → b.boundUntil = none →
      r.sampledAt < max t b.boundFrom ∨ (r.sampledAt = t ∧ b.boundFrom < t)) (e : Nat) : db'.share e r = db.share e r := by
  by_cases last : ∃ b ∈ db.bindings, b.session = r.session ∧ b.boundUntil = none ∧ r.sampledAt = t ∧ b.boundFrom < t
  · obtain ⟨b₀, mem₀, own₀, opened, rfl, began⟩ := last
    exact share_rebound bindings (fun _ => closed_entitlement)
      (fun b mem => charged_at_end h bindings mem₀ own₀ opened began mem) (fun n hn => absurd hn List.not_mem_nil) e
  have before : ∀ b ∈ db.bindings, b.session = r.session → b.boundUntil = none → r.sampledAt < max t b.boundFrom :=
    fun b mem own opened => (kept b mem own opened).resolve_right fun at_ => last ⟨b, mem, own, opened, at_⟩
  have charged := charged_rebound (r := r) bindings (fun _ => closed_session) ?_ ?_ fun n hn => absurd hn List.not_mem_nil
  · exact share_rebound bindings (fun _ => closed_entitlement) charged.1 charged.2 e
  · intro b mem own
    cases shut : b.boundUntil with
    | none => exact covers_closed_of_lt (before b mem own shut)
    | some u => rw [closed_of_some shut]
  · intro b mem own
    cases shut : b.boundUntil with
    | none => exact closesAt_closed_of_lt (before b mem own shut)
    | some u => rw [closed_of_some shut]

end

/-- The operation moves no counted bytes from one entitlement to another, nor out of the accumulator: a
session does not end before a raw sample of it, a binding does not begin at or before one and takes over no
folded history, and no accumulator row with attributed bytes is dropped. -/
def AcctOp.keepsAttribution (db : Db) : AcctOp → Prop
  | .endSession session t _ => ∀ b ∈ db.bindings, b.session = session → b.boundUntil = none →
    ∀ r ∈ db.samples, r.session = session → r.sampledAt < max t b.boundFrom ∨ (r.sampledAt = t ∧ b.boundFrom < t)
  | .rebind session _ t => (∀ r ∈ db.samples, r.session = session → r.sampledAt < t) ∧
    (db.now - day ≤ t ∨ ∀ h ∈ db.hours, h.session = session → h.bucket < truncHour t)
  | .purge _ _ picked => ∀ rows ∈ picked.folded, ∀ a ∈ rows, a.arm = .noBinding
  | _ => True

lemma foldedGap_eq_zero {db scope session e gap records t}
    (kept : (AcctOp.rebind session e t).keepsAttribution db) (old : t < db.now - day)
    (same : (gap, records) = db.foldedGap scope session t) : gap = 0 := by
  have none := kept.2.resolve_left (not_le.mpr old)
  have empty : (db.hours.filter fun h => h.session == session && decide (truncHour t ≤ h.bucket)) = [] := by
    refine List.filter_eq_nil_iff.mpr fun h hh => ?_
    simp only [Bool.and_eq_true, beq_iff_eq, decide_eq_true_eq, not_and, not_le]
    exact none h hh
  rw [show gap = (db.foldedGap scope session t).1 from congrArg Prod.fst same]
  simp only [Db.foldedGap, empty, total_nil, Nat.zero_sub]

namespace Consumed

variable {db db' : Db}

lemma of_shares (h : Consumed db) (timelines : Timelines db'.bindings) (samples : db'.samples = db.samples)
    (sessions : ∀ s ∈ db.sessions, ∃ s' ∈ db'.sessions, s'.id = s.id)
    (folded : ∀ e arm, arm ≠ .noBinding → total FoldedUsage.bytes (db'.foldedOf e arm) = total FoldedUsage.bytes (db.foldedOf e arm))
    (shares : ∀ r ∈ db.samples, ∀ e, db'.share e r = db.share e r)
    (entitlements : ∀ x' ∈ db'.entitlements, ∃ x ∈ db.entitlements, x.id = x'.id ∧ x.consumedDataBytes = x'.consumedDataBytes) :
    Consumed db' := by
  refine ⟨timelines, ?_, ?_⟩
  · rw [samples]
    intro r hr
    obtain ⟨s, hs, own⟩ := h.known r hr
    obtain ⟨s', hs', id⟩ := sessions s hs
    exact ⟨s', hs', id.trans own⟩
  · intro x' hx'
    obtain ⟨x, hx, id, same⟩ := entitlements x' hx'
    have before := h.consumed x hx
    rw [p3EntitlementDataUsage_eq] at before ⊢
    rw [folded _ _ (by decide), folded _ _ (by decide), samples, ← id, ← same,
      total_congr fun r hr => shares r hr x.id]
    exact before

lemma frame (h : Consumed db) (bindings : db'.bindings = db.bindings) (samples : db'.samples = db.samples)
    (folded : db'.folded = db.folded) (entitlements : db'.entitlements = db.entitlements)
    (sessions : ∀ s ∈ db.sessions, ∃ s' ∈ db'.sessions, s'.id = s.id) : Consumed db' := by
  refine h.of_shares (bindings ▸ h.timelines) samples sessions ?_ ?_ ?_
  · intro e arm _
    unfold Db.foldedOf
    rw [folded]
  · intro r _ e
    have charged : ∀ b, db'.charged b r = db.charged b r := by
      intro b
      unfold Db.charged Db.bound
      rw [bindings]
    unfold Db.share Db.bindingsOf
    rw [bindings, total_congr fun b _ => by rw [charged b]]
  · rw [entitlements]
    exact fun x hx => ⟨x, hx, rfl, rfl⟩

lemma grown {scope r s cp time e} (h : Consumed db)
    (mem : s ∈ db.sessions) (id : s.id = r.series.session) (attributed : db.p3EntitlementAt r.series.session time = some e) :
    Consumed (db.draw.recordDelta r.series (db.sampleOf scope r cp time) e r.up r.down) := by
  obtain ⟨b, best, rfl⟩ := Option.map_eq_some_iff.mp attributed
  obtain ⟨hb, covering⟩ := List.mem_filter.mp (List.argmax_mem best)
  simp only [Bool.and_eq_true, beq_iff_eq] at covering
  have sessions : ∀ s' ∈ db.sessions, ∃ s'' ∈ (db.draw.recordDelta r.series (db.sampleOf scope r cp time)
      b.entitlement r.up r.down).sessions, s''.id = s'.id := by
    intro s' hs'
    refine ⟨_, List.mem_map_of_mem hs', ?_⟩
    split <;> rfl
  refine ⟨h.timelines, ?_, ?_⟩
  · intro x hx
    rcases List.mem_append.mp hx with old | new
    · obtain ⟨s', hs', own⟩ := h.known x old
      obtain ⟨s'', hs'', same⟩ := sessions s' hs'
      exact ⟨s'', hs'', same.trans own⟩
    · obtain ⟨s'', hs'', same⟩ := sessions s mem
      rw [List.mem_singleton.mp new]
      exact ⟨s'', hs'', same.trans id⟩
  · intro x' hx'
    obtain ⟨x, hx, rfl⟩ := List.mem_map.mp hx'
    have share := h.timelines.share_eq (e := x.id) (r := db.sampleOf scope r cp time) hb covering.1 covering.2
    have before := h.consumed x hx
    rw [p3EntitlementDataUsage_eq] at before
    have usage : ∀ e', (db.draw.recordDelta r.series (db.sampleOf scope r cp time) b.entitlement r.up r.down).p3EntitlementDataUsage e' =
        total FoldedUsage.bytes (db.foldedOf e' .interval) + total FoldedUsage.bytes (db.foldedOf e' .closingInstant) +
          (total (db.share e') db.samples + db.share e' (db.sampleOf scope r cp time)) := by
      intro e'
      rw [p3EntitlementDataUsage_eq]
      have snoc : total (db.share e') (db.samples ++ [db.sampleOf scope r cp time]) =
          total (db.share e') db.samples + db.share e' (db.sampleOf scope r cp time) := by
        rw [total_append, total_cons, total_nil, Nat.add_zero]
      exact congrArg₂ (· + ·) rfl snoc
    split
    case isTrue own =>
      rw [usage]
      simp only
      rw [share, if_pos own.symm, before]
      omega
    case isFalse other =>
      rw [usage, share, if_neg (Ne.symm other), before]
      omega

lemma opened {s id} (h : Consumed db) (new : ∀ s' ∈ db.sessions, s'.id ≠ s.id)
    (fresh : ∀ b ∈ db.bindings, b.id ≠ id) (first : ∀ b ∈ db.bindings, b.session ≠ s.id) : Consumed (db.draw.opened s id) := by
  refine h.of_shares ?_ rfl ?_ (fun _ _ _ => rfl) ?_ fun x hx => ⟨x, hx, rfl, rfl⟩
  · exact h.timelines.snoc fresh rfl fun b mem own => absurd own (first b mem)
  · exact fun s' hs' => ⟨s', List.mem_append_left _ hs', rfl⟩
  · intro r hr e
    obtain ⟨s', hs', own⟩ := h.known r hr
    have other : s.id ≠ r.session := fun same => new s' hs' (own.trans same.symm)
    have bindings : (db.draw.opened s id).bindings = db.bindings.map (fun b => b) ++ [⟨id, s.id, s.entitlement, 1, s.started, none⟩] := by
      rw [List.map_id']
      rfl
    have charged := charged_rebound (r := r) bindings (fun _ => rfl) (fun _ _ _ => rfl) (fun _ _ _ => rfl) (by
      intro n hn own
      rw [List.mem_singleton.mp hn] at own
      exact absurd own other)
    exact share_rebound bindings (fun _ => rfl) charged.1 charged.2 e

lemma moved {session e t} (h : Consumed db) (movable : Movable db session e t)
    (after : ∀ r ∈ db.samples, r.session = session → r.sampledAt < t) : Consumed (db.draw.moved session e t (db.uuid db.drawn)) := by
  have bindings : (db.draw.moved session e t (db.uuid db.drawn)).bindings = db.bindings.map (·.closed session t) ++
      [⟨db.uuid db.drawn, session, e, (db.headBinding session).elim 0 (·.seq) + 1, t, none⟩] := rfl
  refine h.of_shares ?_ rfl ?_ (fun _ _ _ => rfl) ?_ fun x hx => ⟨x, hx, rfl, rfl⟩
  · exact h.timelines.move movable
  · intro s hs
    refine ⟨_, List.mem_map_of_mem hs, ?_⟩
    split <;> rfl
  · intro r hr e'
    have charged := charged_rebound (r := r) bindings (fun _ => closed_session) ?_ ?_ ?_
    · exact share_rebound bindings (fun _ => closed_entitlement) charged.1 charged.2 e'
    · intro b hb own
      by_cases hit : b.session = session
      · exact covers_closed_of_lt (lt_max_of_lt_left (after r hr (own.symm.trans hit)))
      · rw [closed_of_ne hit]
    · intro b hb own
      by_cases hit : b.session = session
      · exact closesAt_closed_of_lt (lt_max_of_lt_left (after r hr (own.symm.trans hit)))
      · rw [closed_of_ne hit]
    · intro n hn own
      rw [List.mem_singleton.mp hn] at own ⊢
      have before := after r hr own.symm
      constructor
      · rw [Bool.eq_false_iff, ne_eq, covers_iff]
        exact fun c => absurd c.1 (not_le.mpr before)
      · rw [Bool.eq_false_iff, ne_eq, closesAt_iff]
        exact fun c => absurd c.1 (not_le.mpr before)

lemma ended {session t reason} (h : Consumed db)
    (kept : (AcctOp.endSession session t reason).keepsAttribution db) : Consumed (db.endSession session t reason) := by
  have sessions : ∀ s ∈ db.sessions, ∃ s' ∈ (db.endSession session t reason).sessions, s'.id = s.id := by
    intro s hs
    refine ⟨_, List.mem_map_of_mem hs, ?_⟩
    split <;> rfl
  by_cases live : db.sessions.any fun s => s.id == session && s.ended.isNone
  · have bindings : (db.endSession session t reason).bindings = db.bindings.map (·.closed session t) ++ [] := by
      rw [List.append_nil]
      exact if_pos live
    refine h.of_shares ?_ rfl sessions (fun _ _ _ => rfl) ?_ fun x hx => ⟨x, hx, rfl, rfl⟩
    · rw [bindings, List.append_nil]
      exact h.timelines.close
    · intro r hr e
      by_cases own : r.session = session
      · subst own
        exact share_ended h.timelines bindings (fun b mem same opened => kept b mem same opened r hr rfl) e
      have charged := charged_rebound (r := r) bindings (fun _ => closed_session)
        (fun b _ hb => by rw [closed_of_ne fun hit => own (hb.symm.trans hit)])
        (fun b _ hb => by rw [closed_of_ne fun hit => own (hb.symm.trans hit)])
        fun n hn => absurd hn List.not_mem_nil
      exact share_rebound bindings (fun _ => closed_entitlement) charged.1 charged.2 e
  · exact h.frame (if_neg live) rfl rfl rfl sessions

/-- The arms a folded sample is added to take over its shares. -/
lemma total_attribution {e r} : total (fun o => if o = (e, Arm.interval) then r.bytes else 0) (db.attribution r) +
    total (fun o => if o = (e, Arm.closingInstant) then r.bytes else 0) (db.attribution r) = db.share e r := by
  have closing : total (fun o => if o = (e, Arm.closingInstant) then r.bytes else 0) (db.attribution r) =
      total (fun b => if r.session == b.session && (b.closesAt r.sampledAt && !db.bound r.session r.sampledAt) then r.bytes else 0)
        (db.bindingsOf e) := by
    unfold Db.attribution
    rw [total_append, total_append, total_owners, if_neg (by decide), Nat.zero_add]
    rw [total_unbound (by decide), Nat.add_zero]
    cases db.bound r.session r.sampledAt with
    | true => exact (total_eq_zero fun b _ => by simp).symm
    | false =>
      simp only [Bool.false_eq_true, if_false, Bool.not_false, Bool.and_true]
      rw [total_owners, if_pos rfl]
  rw [total_attribution_interval, closing, ← total_add]
  unfold Db.share Db.charged
  refine total_congr fun b _ => ?_
  cases r.session == b.session with
  | false => rfl
  | true =>
    cases covers : b.covers r.sampledAt with
    | false => simp
    | true =>
      have open_ : b.closesAt r.sampledAt = false := by
        rw [Bool.eq_false_iff, ne_eq, closesAt_iff]
        exact fun h => absurd ((covers_iff.mp covers).2 _ h.2) (lt_irrefl _)
      simp [open_]

lemma folded {scope r} (h : Consumed db) (mem : r ∈ db.samples) : Consumed (db.foldSample scope r) := by
  refine ⟨h.timelines, fun x hx => h.known x (List.mem_of_mem_erase hx), fun x hx => ?_⟩
  have before := h.consumed x hx
  rw [p3EntitlementDataUsage_eq, total_perm (List.perm_cons_erase mem), total_cons, ← total_attribution] at before
  rw [p3EntitlementDataUsage_eq, total_foldSample, total_foldSample]
  have rest : total ((db.foldSample scope r).share x.id) (db.foldSample scope r).samples =
      total (db.share x.id) (db.samples.erase r) := rfl
  omega

lemma dropped {rows : List FoldedUsage} (h : Consumed db) (unattributed : ∀ a ∈ rows, a.arm = .noBinding) :
    Consumed { db with folded := db.folded.filter fun a => !decide (a ∈ rows) } := by
  refine h.of_shares h.timelines rfl (fun s hs => ⟨s, hs, rfl⟩) ?_ (fun _ _ _ => rfl) fun x hx => ⟨x, hx, rfl, rfl⟩
  intro e arm attributed
  unfold Db.foldedOf
  rw [List.filter_filter]
  congr 1
  refine List.filter_congr fun a _ => ?_
  by_cases own : a.arm = arm
  · have kept : a ∉ rows := fun ha => attributed (own.symm.trans (unattributed a ha))
    simp [kept]
  · simp [own]

end Consumed

lemma AcctMove.keepsAttribution {op db db'} (move : AcctMove op db db') (kept : op.keepsAttribution db) : op.keepsAttribution db' := by
  cases op with
  | endSession session t reason =>
    cases move
    case ended same =>
      cases same
      intro b hb own opened
      by_cases live : db.sessions.any fun s => s.id == session && s.ended.isNone
      · have bindings : (db.endSession session t reason).bindings = db.bindings.map (·.closed session t) := if_pos live
        rw [bindings] at hb
        obtain ⟨b, mem, rfl⟩ := List.mem_map.mp hb
        rw [closed_session] at own
        cases shut : b.boundUntil with
        | none =>
          rw [closed_of_open own shut] at opened
          cases opened
        | some u =>
          rw [closed_of_some shut, shut] at opened
          cases opened
      · have bindings : (db.endSession session t reason).bindings = db.bindings := if_neg live
        rw [bindings] at hb
        exact kept b hb own opened
    case baselined none _ _ => cases none
    case rebased none _ _ _ => cases none
    all_goals contradiction
  | rebind session e t =>
    cases move
    case moved => exact kept
    case gapCharged same old gap pos _ _ reconciled =>
      cases same
      exact absurd (foldedGap_eq_zero kept old gap) (Nat.pos_iff_ne_zero.mp pos)
    case baselined none _ _ => cases none
    case rebased none _ _ _ => cases none
    all_goals contradiction
  | purge => exact kept
  | _ => trivial

lemma Consumed.move {op : AcctOp} {db db' : Db} (h : Consumed db) (move : AcctMove op db db') (kept : op.keepsAttribution db) :
    Consumed db' := by
  have sessions : ∀ s ∈ db.sessions, ∃ s' ∈ db.sessions, s'.id = s.id := fun s hs => ⟨s, hs, rfl⟩
  cases move with
  | baselined | rebased | rolledUp | hoursDropped | examined | recounted | crossed => exact h.frame rfl rfl rfl rfl sessions
  | grown _ _ mem id _ _ _ _ _ attributed => exact h.grown mem id attributed
  | opened _ new fresh first => exact h.opened new fresh first
  | ended same => subst same; exact h.ended kept
  | relocated same =>
    subst same
    refine h.frame rfl rfl rfl rfl fun s hs => ⟨_, List.mem_map_of_mem hs, ?_⟩
    split <;> rfl
  | moved same movable => subst same; exact h.moved movable kept.1
  | gapCharged same old gap pos =>
    subst same
    exact absurd (foldedGap_eq_zero kept old gap) (Nat.pos_iff_ne_zero.mp pos)
  | folded _ _ mem => exact h.folded mem
  | foldedDropped same mem => subst same; exact h.dropped (kept _ mem)
  | statusSet same =>
    subst same
    refine h.of_shares h.timelines rfl sessions (fun _ _ _ => rfl) (fun _ _ _ => rfl) fun x' hx' => ?_
    obtain ⟨x, hx, rfl⟩ := List.mem_map.mp hx'
    refine ⟨x, hx, ?_⟩
    split <;> exact ⟨rfl, rfl⟩
  | ticked same => subst same; exact h.frame rfl rfl rfl rfl sessions

lemma Consumed.apply {op : AcctOp} {db : Db} (h : Consumed db) (kept : op.keepsAttribution db) : Consumed (op.apply db) :=
  (Prog.keep (S := fun db => Consumed db ∧ op.keepsAttribution db)
    (fun move ih => ⟨ih.1.move move ih.2, move.keepsAttribution ih.2⟩) (apply_moves op db) ⟨h, kept⟩).1

lemma Unaccounted.consumed {db} (h : Unaccounted db) (zero : ∀ x ∈ db.entitlements, x.consumedDataBytes = 0) : Consumed db := by
  refine ⟨⟨?_, ?_, ?_, ?_⟩, by simp [h.samples], fun x hx => ?_⟩
  iterate 4 simp [h.bindings]
  rw [zero x hx, p3EntitlementDataUsage_eq, h.samples]
  unfold Db.foldedOf
  rw [h.folded]
  rfl

/-- The counter equals the attributed usage. In every run from unaccounted tables with counters at zero whose
operations keep the attribution of what was counted, every entitlement has consumed exactly its attributed
usage. -/
theorem consumed_eq_usage {start db : Db} {ops : List AcctOp} (fresh : Unaccounted start)
    (zero : ∀ x ∈ start.entitlements, x.consumedDataBytes = 0)
    (run : Run (fun db op db' => op.keepsAttribution db ∧ acctStep db op db') start ops db) :
    ∀ x ∈ db.entitlements, x.consumedDataBytes = db.p3EntitlementDataUsage x.id := by
  have consumed : Consumed db := run.invariant (fun step h => step.2 ▸ h.apply step.1) (fresh.consumed zero)
  exact consumed.consumed

/-- The site with a second entitlement of the guest's device. -/
def twoEntitlements : Db :=
  { site with
    entitlements := site.entitlements ++ [⟨2, ⟨1, 1⟩, none, none, 2, none, 1, 1, .validityWindow, .fixedAt, none, .active,
      none, some 100, 0, 0, none, false, some 0, none⟩]
    devices := site.devices ++ [⟨2, 7, .authorized, false, none, none, none⟩] }

instance (db : Db) (op : AcctOp) : Decidable (op.keepsAttribution db) := by
  rcases op <;> unfold AcctOp.keepsAttribution <;> infer_instance

/-- The guest carries 100 bytes and moves to the second entitlement at the instant given. -/
def carriesAndMoves (t : Int) : List AcctOp :=
  [.openSession guest, .ingest (observe 1 0 0 0), .ingest (observe 1 60 40 5), .rebind 1 2 t]

theorem consumed_after_move : ∃ db,
    Run (fun db op db' => op.keepsAttribution db ∧ acctStep db op db') twoEntitlements (carriesAndMoves 6) db ∧
      db.p3EntitlementDataUsage 1 = 100 ∧
      ∀ x ∈ db.entitlements, x.consumedDataBytes = db.p3EntitlementDataUsage x.id := by
  obtain ⟨db, run, h⟩ := exists_guarded (f := AcctOp.apply) (G := fun db op => op.keepsAttribution db) (s := twoEntitlements)
    (l := carriesAndMoves 6) (P := fun db => decide (db.p3EntitlementDataUsage 1 = 100)) (by decide +kernel)
  exact ⟨db, run, of_decide_eq_true h, consumed_eq_usage ⟨rfl, rfl, rfl, rfl⟩ (by decide) run⟩

/-- A move to an instant before the sample: the counter stays with the first entitlement, the usage moves. -/
theorem move_into_the_past_breaks_usage : ∃ db, Unaccounted twoEntitlements ∧
    (∀ x ∈ twoEntitlements.entitlements, x.consumedDataBytes = 0) ∧
    Run acctStep twoEntitlements (carriesAndMoves 3) db ∧
    db.entitlements.map (fun x => (x.id, x.consumedDataBytes)) = [(1, 100), (2, 0)] ∧
    db.p3EntitlementDataUsage 1 = 0 ∧ db.p3EntitlementDataUsage 2 = 100 :=
  ⟨_, ⟨rfl, rfl, rfl, rfl⟩, by decide, run_foldl _ _, by decide +kernel, by decide +kernel, by decide +kernel⟩

lemma Timelines.step {op db db'} (h : Timelines db.bindings) (move : AcctMove op db db') : Timelines db'.bindings := by
  cases move with
  | opened _ _ fresh first => exact h.snoc fresh rfl fun b mem own => absurd own (first b mem)
  | moved _ movable => exact h.move movable
  | ended =>
    dsimp only [Db.endSession]
    split
    · exact h.close
    · exact h
  | gapCharged _ _ _ _ _ _ reconciled =>
    rcases reconcile_commits reconciled with ⟨b, -, -, rfl⟩ | ⟨rfl, -⟩ <;> exact h
  | relocated same | statusSet same | ticked same => subst same; exact h
  | _ => exact h

end StayConnect.Iam
