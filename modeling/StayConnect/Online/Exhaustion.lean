import StayConnect.Accrual
import StayConnect.Online.Conservation
import Mathlib.Data.List.Pairwise
import Mathlib.Data.List.Dedup
import Mathlib.Data.Rat.Cast.Order
import Mathlib.Algebra.Order.Field.Rat

/-!
# Exhaustion is dated exactly

The walk over the boundaries of the charged intervals finds the segment in which the remaining budget is used up. `Reached`
relates the instant it gives to the earliest instant, in exact arithmetic, at which the charged intervals accrue what was left:
it is that instant to the nearest microsecond. What a tick reads of a session depends on the rows of that session alone, so the
instant does not depend on the order of the sessions.
-/

namespace StayConnect.Online
open Keyed Iam
open Accrual hiding crossing

/-- The interval in exact arithmetic. -/
def Interval.span (i : Interval) : ℚ × ℚ := (i.start, i.stop)

/-- What the intervals accrue up to an instant, in microseconds. -/
def accruedBy (is : List Interval) (t : ℚ) : ℚ := accrued (is.map Interval.span) t

/-- The walk with its quotient as it is, before it is stored as a timestamp. -/
def exactWalk (is : List Interval) (remaining : Int) : Int → List Int → Option ℚ
  | acc, p₀ :: p₁ :: rest =>
    let seg := (p₁ - p₀) * rate is p₀ p₁
    if rate is p₀ p₁ = 0 then exactWalk is remaining acc (p₁ :: rest)
    else if remaining ≤ acc + seg then some (p₀ + (remaining - acc : Int) / (rate is p₀ p₁ : Int))
    else exactWalk is remaining (acc + seg) (p₁ :: rest)
  | _, _ => none

/-- `exact` is the earliest instant at which the intervals accrue what remains, and `t` the same to the microsecond; both lie in
one of the intervals. -/
structure Reached (is : List Interval) (remaining : Int) (exact : ℚ) (t : Int) : Prop where
  earliest : IsLeast {x | (remaining : ℚ) ≤ accruedBy is x} exact
  rounded : |(t : ℚ) - exact| ≤ 1 / 2
  inside : ∃ i ∈ is, (i.start : ℚ) ≤ exact ∧ exact ≤ i.stop ∧ i.start ≤ t ∧ t ≤ i.stop

lemma roundHalfEven_near {n d} (pos : 0 < d) : |(roundHalfEven n d : ℚ) - n / d| ≤ 1 / 2 := by
  have positive : (0 : ℚ) < d := by exact_mod_cast pos
  have split : (n : ℚ) = d * (n / d : Int) + (n % d : Int) := by exact_mod_cast (Int.mul_ediv_add_emod n d).symm
  have low : (0 : ℚ) ≤ (n % d : Int) := by exact_mod_cast Int.emod_nonneg n pos.ne'
  have value : (n : ℚ) / d = (n / d : Int) + (n % d : Int) / d := by
    rw [div_eq_iff positive.ne', add_mul, div_mul_cancel₀ _ positive.ne']
    linarith
  have down : 2 * (n % d) ≤ d → |((n / d : Int) : ℚ) - n / d| ≤ 1 / 2 := by
    intro small
    have small : 2 * ((n % d : Int) : ℚ) ≤ d := by exact_mod_cast small
    have half : ((n % d : Int) : ℚ) / d ≤ 1 / 2 := by
      rw [div_le_iff₀ positive]
      linarith
    have fraction : 0 ≤ ((n % d : Int) : ℚ) / d := div_nonneg low positive.le
    rw [value, abs_le]
    constructor <;> linarith
  have up : d ≤ 2 * (n % d) → |((n / d + 1 : Int) : ℚ) - n / d| ≤ 1 / 2 := by
    intro large
    have large : (d : ℚ) ≤ 2 * ((n % d : Int) : ℚ) := by exact_mod_cast large
    have below : ((n % d : Int) : ℚ) ≤ d := by exact_mod_cast (Int.emod_lt_of_pos n pos).le
    have half : 1 / 2 ≤ ((n % d : Int) : ℚ) / d := by
      rw [le_div_iff₀ positive]
      linarith
    have fraction : ((n % d : Int) : ℚ) / d ≤ 1 := (div_le_one positive).mpr below
    rw [value, abs_le]
    push_cast
    constructor <;> linarith
  unfold roundHalfEven
  dsimp only
  split_ifs with less more even
  · exact down less.le
  · exact up more.le
  · exact down (not_lt.mp more)
  · exact up (not_lt.mp less)

section
variable {is : List Interval} {remaining : Int}

lemma rate_eq_burning (p₀ p₁ : Int) : rate is p₀ p₁ = burning (is.map Interval.span) (p₀ : ℚ) p₁ := by
  unfold rate burning
  rw [List.countP_map]
  refine List.countP_congr fun i _ => ?_
  simp [Covers, Interval.span]

lemma Interval.forward (i : Interval) : i.start ≤ i.stop := by
  unfold Interval.stop second
  omega

lemma spans_forward : ∀ s ∈ is.map Interval.span, s.1 ≤ s.2 := by
  intro s hs
  obtain ⟨i, -, rfl⟩ := List.mem_map.mp hs
  exact Int.cast_le.mpr i.forward

lemma reached_segment {p₀ p₁ acc : Int} (apart : ∀ s ∈ is.map Interval.span, Apart s (p₀ : ℚ) p₁) (lt : p₀ < p₁)
    (total : (acc : ℚ) = accruedBy is p₀) (before : acc < remaining) (enough : (remaining : ℚ) ≤ accruedBy is p₁) :
    Reached is remaining (p₀ + (remaining - acc : Int) / (rate is p₀ p₁ : Int))
      (p₀ + roundHalfEven (remaining - acc) (rate is p₀ p₁)) := by
  have below : accrued (is.map Interval.span) (p₀ : ℚ) < remaining := by
    change accruedBy is p₀ < _
    rw [← total]
    exact_mod_cast before
  obtain ⟨earliest, after, within, s, hs, covers⟩ :=
    isLeast_crossing spans_forward apart (Int.cast_lt.mpr lt) below enough
  obtain ⟨i, hi, rfl⟩ := List.mem_map.mp hs
  have some : 0 < rate is p₀ p₁ := by
    rw [rate_eq_burning]
    exact List.countP_pos_iff.mpr ⟨_, hs, decide_eq_true covers⟩
  have near := roundHalfEven_near (n := remaining - acc) (d := rate is p₀ p₁) (by exact_mod_cast some)
  obtain ⟨exact, instant⟩ : ∃ exact, exact = Accrual.crossing (is.map Interval.span) (p₀ : ℚ) p₁ remaining := ⟨_, rfl⟩
  rw [← instant] at earliest after within
  have value : exact = p₀ + (remaining - acc : Int) / (rate is p₀ p₁ : Int) := by
    rw [instant, Accrual.crossing, rate_eq_burning, show accrued _ _ = accruedBy is p₀ from rfl, ← total]
    push_cast
    rfl
  obtain ⟨t, recorded⟩ : ∃ t, t = p₀ + roundHalfEven (remaining - acc) (rate is p₀ p₁) := ⟨_, rfl⟩
  rw [← recorded, ← value]
  have rounded : |(t : ℚ) - exact| ≤ 1 / 2 := by
    rw [value, recorded]
    push_cast at near ⊢
    convert near using 2
    ring
  obtain ⟨down, up⟩ := abs_le.mp rounded
  -- A rounded instant does not leave a segment whose ends are whole microseconds.
  have low : p₀ ≤ t := by
    have : (p₀ : ℚ) < t + 1 := by linarith
    have : p₀ < t + 1 := by exact_mod_cast this
    omega
  have high : t ≤ p₁ := by
    have : (t : ℚ) < p₁ + 1 := by linarith
    have : t < p₁ + 1 := by exact_mod_cast this
    omega
  have start : i.start ≤ p₀ := Int.cast_le.mp covers.1
  have stop : p₁ ≤ i.stop := Int.cast_le.mp covers.2
  refine ⟨earliest, rounded, i, hi, ?_, ?_, start.trans low, high.trans stop⟩
  · exact (Int.cast_le.mpr start).trans after.le
  · exact within.trans (Int.cast_le.mpr stop)

lemma apart_of_ends {p₀ p₁ rest} (sorted : (p₀ :: p₁ :: rest).Pairwise (· < ·))
    (ends : ∀ i ∈ is, (i.start ≤ p₀ ∨ i.start ∈ p₁ :: rest) ∧ (i.stop ≤ p₀ ∨ i.stop ∈ p₁ :: rest)) :
    ∀ s ∈ is.map Interval.span, Apart s (p₀ : ℚ) p₁ := by
  have later : ∀ x ∈ p₁ :: rest, p₁ ≤ x := by
    intro x hx
    rcases List.mem_cons.mp hx with rfl | hx
    · exact le_rfl
    · exact (List.rel_of_pairwise_cons (List.pairwise_cons.mp sorted).2 hx).le
  intro s hs
  obtain ⟨i, hi, rfl⟩ := List.mem_map.mp hs
  obtain ⟨start, stop⟩ := ends i hi
  refine ⟨start.imp ?_ ?_, stop.imp ?_ ?_⟩
  · exact Int.cast_le.mpr
  · exact fun h => Int.cast_le.mpr (later _ h)
  · exact Int.cast_le.mpr
  · exact fun h => Int.cast_le.mpr (later _ h)

lemma walk_reached {p₀ acc : Int} {rest} (sorted : (p₀ :: rest).Pairwise (· < ·))
    (ends : ∀ i ∈ is, (i.start ≤ p₀ ∨ i.start ∈ rest) ∧ (i.stop ≤ p₀ ∨ i.stop ∈ rest))
    (total : (acc : ℚ) = accruedBy is p₀) (before : acc < remaining)
    (enough : (remaining : ℚ) ≤ accruedBy is (((p₀ :: rest).getLast (List.cons_ne_nil _ _) : Int) : ℚ)) :
    ∃ t exact, walk is remaining acc (p₀ :: rest) = some t ∧ exactWalk is remaining acc (p₀ :: rest) = some exact ∧
      Reached is remaining exact t := by
  induction rest generalizing p₀ acc with
  | nil =>
    rw [List.getLast_singleton, ← total] at enough
    have : remaining ≤ acc := by exact_mod_cast enough
    omega
  | cons p₁ rest ih =>
    have lt : p₀ < p₁ := List.rel_of_pairwise_cons sorted List.mem_cons_self
    have apart := apart_of_ends sorted ends
    have grown : accruedBy is p₁ = acc + ((p₁ - p₀) * rate is p₀ p₁ : Int) := by
      have grows := accrued_segment spans_forward apart (Int.cast_lt.mpr lt) (Int.cast_le.mpr lt.le) le_rfl
      rw [total, rate_eq_burning]
      push_cast
      exact grows
    have onward : ∀ i ∈ is, (i.start ≤ p₁ ∨ i.start ∈ rest) ∧ (i.stop ≤ p₁ ∨ i.stop ∈ rest) := by
      have step : ∀ x, x ≤ p₀ ∨ x ∈ p₁ :: rest → x ≤ p₁ ∨ x ∈ rest := by
        intro x hx
        rcases hx with early | late
        · exact .inl (early.trans lt.le)
        · exact (List.mem_cons.mp late).imp le_of_eq id
      exact fun i hi => ⟨step _ (ends i hi).1, step _ (ends i hi).2⟩
    rw [List.getLast_cons (List.cons_ne_nil _ _)] at enough
    have tail := (List.pairwise_cons.mp sorted).2
    unfold walk exactWalk
    dsimp only
    split_ifs with gap reaches
    · rw [gap] at grown
      exact ih tail onward (by simpa using grown.symm) before enough
    · have there : (remaining : ℚ) ≤ accruedBy is p₁ := by
        rw [grown]
        exact_mod_cast reaches
      exact ⟨_, _, rfl, rfl, reached_segment apart lt total before there⟩
    · exact ih tail onward (by rw [grown]; push_cast; rfl) (not_le.mp reaches) enough

lemma points_sorted : (points is).Pairwise (· < ·) := by
  have nodup : (points is).Nodup := (List.perm_insertionSort _ _).nodup_iff.mpr (List.nodup_dedup _)
  have sorted : (points is).Pairwise (· ≤ ·) := List.pairwise_insertionSort _ _
  exact sorted.imp₂ (fun _ _ le ne => lt_of_le_of_ne le ne) nodup

lemma mem_points {x} : x ∈ points is ↔ ∃ i ∈ is, i.start = x ∨ i.stop = x := by
  unfold points
  rw [List.mem_insertionSort, List.mem_dedup, List.mem_append, List.mem_map, List.mem_map]
  constructor
  · rintro (⟨i, hi, rfl⟩ | ⟨i, hi, rfl⟩)
    · exact ⟨i, hi, .inl rfl⟩
    · exact ⟨i, hi, .inr rfl⟩
  · rintro ⟨i, hi, rfl | rfl⟩
    · exact .inl ⟨i, hi, rfl⟩
    · exact .inr ⟨i, hi, rfl⟩

/-- The lengths of the intervals are the whole seconds charged. -/
lemma sum_spans : ((is.map Interval.span).map fun s => s.2 - s.1).sum = ((total (·.whole) is * second : Int) : ℚ) := by
  induction is with
  | nil => simp
  | cons i rest ih =>
    rw [List.map_cons, List.map_cons, List.sum_cons, ih, total_cons]
    unfold Interval.span Interval.stop
    push_cast
    ring

lemma crossing_reached (pos : 0 < remaining) (enough : remaining ≤ total (·.whole) is * second) :
    ∃ t exact, crossing is remaining = some t ∧ exactWalk is remaining 0 (points is) = some exact ∧ Reached is remaining exact t := by
  have sorted : (points is).Pairwise (· < ·) := points_sorted
  have inPoints : ∀ i ∈ is, i.start ∈ points is ∧ i.stop ∈ points is := fun i hi =>
    ⟨mem_points.mpr ⟨i, hi, .inl rfl⟩, mem_points.mpr ⟨i, hi, .inr rfl⟩⟩
  unfold crossing
  cases shape : points is with
  | nil =>
    have none : is = [] := by
      refine List.eq_nil_iff_forall_not_mem.mpr fun i hi => ?_
      have := (inPoints i hi).1
      rw [shape] at this
      exact List.not_mem_nil this
    rw [none, total_nil] at enough
    omega
  | cons p₀ rest =>
    rw [shape] at sorted inPoints
    have first : ∀ x ∈ p₀ :: rest, p₀ ≤ x := by
      intro x hx
      rcases List.mem_cons.mp hx with rfl | hx
      · exact le_rfl
      · exact (List.rel_of_pairwise_cons sorted hx).le
    have nothing : accruedBy is p₀ = 0 := by
      refine accrued_before fun s hs => ?_
      obtain ⟨i, hi, rfl⟩ := List.mem_map.mp hs
      exact Int.cast_le.mpr (first _ (inPoints i hi).1)
    have everything : accruedBy is (((p₀ :: rest).getLast (List.cons_ne_nil _ _) : Int) : ℚ) =
        ((total (·.whole) is * second : Int) : ℚ) := by
      rw [← sum_spans]
      refine accrued_after spans_forward fun s hs => ?_
      obtain ⟨i, hi, rfl⟩ := List.mem_map.mp hs
      refine Int.cast_le.mpr ?_
      exact (sorted.imp le_of_lt).rel_getLast (inPoints i hi).2
    have ends : ∀ i ∈ is, (i.start ≤ p₀ ∨ i.start ∈ rest) ∧ (i.stop ≤ p₀ ∨ i.stop ∈ rest) := fun i hi =>
      ⟨(List.mem_cons.mp (inPoints i hi).1).imp le_of_eq id, (List.mem_cons.mp (inPoints i hi).2).imp le_of_eq id⟩
    have start : ((0 : Int) : ℚ) = accruedBy is p₀ := nothing.symm
    obtain ⟨t, exact, found, walked, reached⟩ := walk_reached sorted ends start pos (by rw [everything]; exact_mod_cast enough)
    exact ⟨t, exact, by rw [found]; rfl, walked, reached⟩

lemma crossing_perm {is'} (perm : is.Perm is') : crossing is remaining = crossing is' remaining := by
  have rates : ∀ p₀ p₁, rate is p₀ p₁ = rate is' p₀ p₁ := fun p₀ p₁ => perm.countP_eq _
  have walks : ∀ (ps : List Int) (acc : Int), walk is remaining acc ps = walk is' remaining acc ps := by
    intro ps
    induction ps with
    | nil => exact fun _ => rfl
    | cons p₀ rest ih =>
      intro acc
      cases rest with
      | nil => rfl
      | cons p₁ rest =>
        unfold walk
        simp only [rates, ih]
  have same : points is = points is' := by
    refine List.Perm.eq_of_pairwise' (r := (· ≤ ·)) (List.pairwise_insertionSort _ _) (List.pairwise_insertionSort _ _) ?_
    have ends : (is.map (·.start) ++ is.map (·.stop)).Perm (is'.map (·.start) ++ is'.map (·.stop)) :=
      (perm.map _).append (perm.map _)
    exact (List.perm_insertionSort _ _).trans (ends.dedup.trans (List.perm_insertionSort _ _).symm)
  unfold crossing
  rw [same, walks]

end

section
variable {c : Call} {bound : Int} {e : Entitlement} {db db' : Db} {s : Session}

lemma tickSession_read (same : db'.watermark s.id = db.watermark s.id) :
    (tickSession c bound e db' s).2 = (tickSession c bound e db s).2 := by
  unfold tickSession
  simp only [same]
  cases db.watermark s.id with
  | none => rfl
  | some w =>
    dsimp only
    split_ifs <;> rfl

lemma tickSessions_reads {ss} (nodup : (ss.map (·.id)).Nodup) :
    (tickSessions c bound e ss db).2 = ss.map fun s => (s.id, (tickSession c bound e db s).2) := by
  induction ss generalizing db with
  | nil => rfl
  | cons s rest ih =>
    obtain ⟨fresh, nodup⟩ := List.nodup_cons.mp nodup
    rw [tickSessions_cons, ih nodup, List.map_cons]
    refine congrArg (List.cons _) ?_
    refine List.map_congr_left fun t ht => ?_
    have apart : s.id ≠ t.id := fun same => fresh (List.mem_map.mpr ⟨t, ht, same.symm⟩)
    rw [tickSession_read (tickSession_touches.other apart).1]

lemma tickSessions_watermark {ss session} (apart : session ∉ ss.map (·.id)) :
    (tickSessions c bound e ss db).1.watermark session = db.watermark session := by
  induction ss generalizing db with
  | nil => rfl
  | cons s rest ih =>
    rw [List.map_cons, List.mem_cons, not_or] at apart
    rw [tickSessions_cons, ih apart.2, (tickSession_touches.other (Ne.symm apart.1)).1]

lemma settle_report {is is'} (perm : is.Perm is') : (settle e is db).2 = (settle e is' db').2 := by
  unfold settle
  rw [total_perm perm]
  dsimp only
  split
  · rfl
  cases e.timeQuotaSeconds with
  | none => rfl
  | some budget =>
    dsimp only
    split
    · rw [crossing_perm perm]
    · rfl

lemma tickEntitlement_reads (nodup : (db.sessions.map (·.id)).Nodup) (live : e.exhausted = false) :
    (tickEntitlement c bound db e).2.2 = (db.readable e).map fun s => (s.id, (tickSession c bound e db s).2) := by
  unfold tickEntitlement
  rw [live]
  exact tickSessions_reads (nodup.sublist (List.filter_sublist.map _))

/-- The rows an entitlement's turn reads are the same, up to the order of the sessions. -/
structure Alike (e : Entitlement) (db db' : Db) : Prop where
  sessions : db'.sessions.Perm db.sessions
  evidence : db'.adjustmentEvidence = db.adjustmentEvidence
  watermarks : ∀ s ∈ db.sessions, s.entitlement = e.id → db'.watermark s.id = db.watermark s.id

lemma Alike.filter_sessions (h : Alike e db db') : ({ db' with sessions := db.sessions } : Db).readable e = db.readable e := by
  refine List.filter_congr fun s hs => ?_
  change (s.entitlement == e.id && (_ || s.ended.any fun t => (db'.watermark s.id).any _)) = _
  cases own : s.entitlement == e.id with
  | true => rw [h.watermarks s hs (beq_iff_eq.mp own)]
  | false => rfl

lemma Alike.readable (h : Alike e db db') : (db'.readable e).Perm (db.readable e) :=
  (h.sessions.filter _).trans (List.Perm.of_eq h.filter_sessions)

lemma Alike.reads (h : Alike e db db') (nodup : (db.sessions.map (·.id)).Nodup) :
    (tickEntitlement c bound db' e).2.2.Perm (tickEntitlement c bound db e).2.2 := by
  have nodup' : (db'.sessions.map (·.id)).Nodup := (h.sessions.map _).nodup_iff.mpr nodup
  cases live : e.exhausted with
  | true =>
    unfold tickEntitlement
    rw [live]
    exact List.Perm.refl _
  | false =>
    rw [tickEntitlement_reads nodup live, tickEntitlement_reads nodup' live]
    refine (h.readable.map _).trans (List.Perm.of_eq (List.map_congr_left fun s hs => ?_))
    obtain ⟨mem, own⟩ := readable_spec hs
    rw [tickSession_read (h.watermarks s mem own)]

lemma Alike.report (h : Alike e db db') (nodup : (db.sessions.map (·.id)).Nodup) :
    (tickEntitlement c bound db' e).2.1 = (tickEntitlement c bound db e).2.1 := by
  have reads : (tickEntitlement c bound db' e).2.2.Perm (tickEntitlement c bound db e).2.2 := h.reads nodup
  cases live : e.exhausted with
  | true =>
    unfold tickEntitlement Db.p6ExhaustionInstant
    rw [live, h.evidence]
    rfl
  | false =>
    unfold tickEntitlement at reads ⊢
    rw [live] at reads ⊢
    exact settle_report (reads.filterMap _)

lemma Alike.reads_eq (h : Alike e db db') (order : db'.sessions = db.sessions) (nodup : (db.sessions.map (·.id)).Nodup) :
    (tickEntitlement c bound db' e).2.2 = (tickEntitlement c bound db e).2.2 := by
  cases live : e.exhausted with
  | true =>
    unfold tickEntitlement
    rw [live]
    rfl
  | false =>
    have readable : db'.readable e = db.readable e := by
      rw [← h.filter_sessions, ← order]
    rw [tickEntitlement_reads nodup live, tickEntitlement_reads (order ▸ nodup) live, readable]
    refine List.map_congr_left fun s hs => ?_
    obtain ⟨mem, own⟩ := readable_spec hs
    rw [tickSession_read (h.watermarks s mem own)]

lemma alike_tickEntitlement {x} (nodup : (db.sessions.map (·.id)).Nodup) (ne : x.id ≠ e.id) :
    Alike x db (tickEntitlement c bound db e).1 ∧ (tickEntitlement c bound db e).1.sessions = db.sessions := by
  unfold tickEntitlement
  split
  · exact ⟨⟨List.Perm.refl _, rfl, fun _ _ _ => rfl⟩, rfl⟩
  dsimp only
  obtain ⟨-, sessions, evidence⟩ := @tickSessions_frame c bound e db (db.readable e)
  have settled : ∀ is : List Interval, ∀ db₁ : Db, (settle e is db₁).1.sessions = db₁.sessions ∧
      (settle e is db₁).1.adjustmentEvidence = db₁.adjustmentEvidence := by
    intro is db₁
    dsimp only [settle]
    split_ifs
    · exact ⟨rfl, rfl⟩
    · split
      · split_ifs <;> exact ⟨rfl, rfl⟩
      · exact ⟨rfl, rfl⟩
  have order := (settled (intervals (tickSessions c bound e (db.readable e) db).2) _).1.trans sessions
  refine ⟨⟨List.Perm.of_eq order, (settled _ _).2.trans evidence, fun s hs own => ?_⟩, order⟩
  rw [settle_rows.1]
  refine tickSessions_watermark fun mem => ne ?_
  obtain ⟨t, ht, same⟩ := List.mem_map.mp mem
  obtain ⟨there, owner⟩ := readable_spec ht
  rw [← own, ← owner, List.inj_on_of_nodup_map nodup there hs same]

lemma tickEntitlements_cons {rest} : tickEntitlements c bound (e :: rest) db =
    ((tickEntitlements c bound rest (tickEntitlement c bound db e).1).1,
      (tickEntitlement c bound db e).2.1.toList ++ (tickEntitlements c bound rest (tickEntitlement c bound db e).1).2.1,
      (tickEntitlement c bound db e).2.2 ++ (tickEntitlements c bound rest (tickEntitlement c bound db e).1).2.2) := rfl

variable {es : List Entitlement} {budget : Int}

lemma tickEntitlements_eq (nodup : (db.sessions.map (·.id)).Nodup) (apart : (es.map (·.id)).Nodup) :
    (tickEntitlements c bound es db).2 =
      (es.flatMap fun e => (tickEntitlement c bound db e).2.1.toList, es.flatMap fun e => (tickEntitlement c bound db e).2.2) := by
  induction es generalizing db with
  | nil => rfl
  | cons e rest ih =>
    obtain ⟨fresh, apart⟩ := List.nodup_cons.mp apart
    have order : (tickEntitlement c bound db e).1.sessions = db.sessions :=
      (alike_tickEntitlement (x := { e with id := e.id + 1 }) nodup (Nat.succ_ne_self _)).2
    have turns : ∀ x ∈ rest, Alike x db (tickEntitlement c bound db e).1 := fun x hx =>
      (alike_tickEntitlement nodup fun same => fresh (List.mem_map.mpr ⟨x, hx, same⟩)).1
    have next := @ih (tickEntitlement c bound db e).1 (order ▸ nodup) apart
    rw [tickEntitlements_cons, next, List.flatMap_cons, List.flatMap_cons]
    refine congrArg₂ Prod.mk (congrArg _ ?_) (congrArg _ ?_)
    · exact List.flatMap_congr fun x hx => by rw [(turns x hx).report nodup]
    · exact List.flatMap_congr fun x hx => (turns x hx).reads_eq order nodup

lemma mem_tickEntitlements {x} (mem : x ∈ db.entitlements) (apart : x.id ∉ es.map (·.id)) :
    x ∈ (tickEntitlements c bound es db).1.entitlements := by
  induction es generalizing db with
  | nil => exact mem
  | cons e rest ih =>
    rw [List.map_cons, List.mem_cons, not_or] at apart
    rw [tickEntitlements_cons]
    exact ih (mem_tickEntitlement mem apart.1) apart.2

lemma stop_le_ceiling (pos : 0 < bound) {i} (h : (tickSession c bound e db s).2.interval = some i) : i.stop ≤ ceiling c e s := by
  cases row : db.watermark s.id with
  | none =>
    obtain ⟨t, read, -⟩ := tickSession_unseen (c := c) (e := e) row pos
    rw [read] at h
    cases h
  | some w =>
    obtain ⟨whole, through, advances, read, -⟩ := tickSession_seen (c := c) (e := e) row pos
    rw [read] at h
    unfold Read.interval charge at h
    by_cases zero : whole = 0
    · rw [if_pos zero] at h
      cases h
    rw [if_neg zero] at h
    cases h
    have within := advances.within
    unfold Interval.stop second at *
    dsimp only
    omega

/-- No later than now, the session's end, the entitlement's window and the caller's cap. -/
structure Within (c : Call) (e : Entitlement) (s : Session) (x : ℚ) : Prop where
  now : x ≤ c.now
  ended : ∀ t, s.ended = some t → x ≤ t
  window : ∀ t, e.windowEndsAt = some t → x ≤ t
  cap : ∀ t, c.cap e.id = some t → x ≤ t

lemma ceiling_le : ceiling c e s ≤ c.now ∧ (∀ t, s.ended = some t → ceiling c e s ≤ t) ∧
    (∀ t, e.windowEndsAt = some t → ceiling c e s ≤ t) ∧ ∀ t, c.cap e.id = some t → ceiling c e s ≤ t := by
  unfold ceiling
  dsimp only
  cases s.ended <;> cases e.windowEndsAt <;> cases c.cap e.id <;> simp

lemma Within.of_le_ceiling {x : ℚ} (h : x ≤ ceiling c e s) : Within c e s x := by
  obtain ⟨now, ended, window, cap⟩ := @ceiling_le c e s
  exact
    { now := h.trans (Int.cast_le.mpr now)
      ended := fun t ht => h.trans (Int.cast_le.mpr (ended t ht))
      window := fun t ht => h.trans (Int.cast_le.mpr (window t ht))
      cap := fun t ht => h.trans (Int.cast_le.mpr (cap t ht)) }

/-- The intervals a tick charged to the sessions of an entitlement. -/
def Db.chargedTo (db : Db) (e : Entitlement) (reads : List (Nat × Read)) : List (Session × Interval) :=
  reads.filterMap fun (session, read) =>
    ((lookup (·.id) session db.sessions).filter (·.entitlement == e.id)).bind fun s => read.interval.map (s, ·)

/-- The exhaustion of a budget is dated: `exact` is what the walk finds, the earliest instant at which the intervals charged
accrue the microseconds left before the tick, and `t` is stored for it, the nearest microsecond. Both lie in one of the intervals
and within the boundaries of its session. -/
structure Dated (c : Call) (e : Entitlement) (charged : List (Session × Interval)) (left : Int) (exact : ℚ) (t : Int) : Prop where
  walked : exactWalk (charged.map (·.2)) left 0 (points (charged.map (·.2))) = some exact
  earliest : IsLeast {x | (left : ℚ) ≤ accruedBy (charged.map (·.2)) x} exact
  rounded : |(t : ℚ) - exact| ≤ 1 / 2
  inside : ∃ s i, (s, i) ∈ charged ∧ (i.start ≤ exact ∧ exact ≤ i.stop ∧ Within c e s exact) ∧
    (i.start ≤ t ∧ t ≤ i.stop ∧ Within c e s t)

lemma lookup_session (nodup : (db.sessions.map (·.id)).Nodup) (mem : s ∈ db.sessions) : lookup (·.id) s.id db.sessions = some s :=
  find?_unique mem (decide_eq_true rfl) fun _ ht same =>
    List.inj_on_of_nodup_map nodup ht mem (of_decide_eq_true same)

lemma chargedTo_append {xs ys} : db.chargedTo e (xs ++ ys) = db.chargedTo e xs ++ db.chargedTo e ys :=
  List.filterMap_append

section
variable (nodup : (db.sessions.map (·.id)).Nodup)
include nodup

lemma chargedTo_other {x} (ne : x.id ≠ e.id) : db.chargedTo e (tickEntitlement c bound db x).2.2 = [] := by
  cases live : x.exhausted with
  | true =>
    unfold tickEntitlement
    rw [live]
    rfl
  | false =>
    rw [tickEntitlement_reads nodup live, Db.chargedTo, List.filterMap_map, List.filterMap_eq_nil_iff]
    intro s hs
    obtain ⟨mem, own⟩ := readable_spec hs
    simp [lookup_session nodup mem, Option.filter, own, ne]

lemma chargedTo_others (ne : ∀ x ∈ es, x.id ≠ e.id) : db.chargedTo e (es.flatMap fun x => (tickEntitlement c bound db x).2.2) = [] := by
  induction es with
  | nil => rfl
  | cons x rest ih =>
    rw [List.flatMap_cons, chargedTo_append, chargedTo_other nodup (ne x List.mem_cons_self),
      ih fun y hy => ne y (List.mem_cons_of_mem _ hy), List.append_nil]

lemma chargedTo_own (live : e.exhausted = false) :
    db.chargedTo e (tickEntitlement c bound db e).2.2 =
      (db.readable e).filterMap fun s => (tickSession c bound e db s).2.interval.map (s, ·) := by
  rw [tickEntitlement_reads nodup live, Db.chargedTo, List.filterMap_map]
  refine List.filterMap_congr fun s hs => ?_
  obtain ⟨mem, own⟩ := readable_spec hs
  simp [lookup_session nodup mem, Option.filter, own]

lemma intervals_own (live : e.exhausted = false) :
    (db.chargedTo e (tickEntitlement c bound db e).2.2).map (·.2) = intervals (tickEntitlement c bound db e).2.2 := by
  rw [chargedTo_own nodup live, tickEntitlement_reads nodup live, intervals, List.map_filterMap, List.filterMap_map]
  refine List.filterMap_congr fun s _ => ?_
  simp [Option.map_map, Function.comp_def]

lemma tickEntitlement_dated (live : e.exhausted = false) (pos : 0 < bound) (quota : e.timeQuotaSeconds = some budget)
    (used : budget ≤ e.consumedOnlineSeconds + total (·.whole) (intervals (tickEntitlement c bound db e).2.2)) :
    ∃ t exact, (tickEntitlement c bound db e).2.1 = some (e.id, t) ∧
      Dated c e (db.chargedTo e (tickEntitlement c bound db e).2.2) ((budget - e.consumedOnlineSeconds) * second) exact t := by
  have charged : (db.chargedTo e (tickEntitlement c bound db e).2.2).map (·.2) = intervals (tickEntitlement c bound db e).2.2 :=
    intervals_own nodup live
  obtain ⟨is, eq⟩ : ∃ is, is = intervals (tickEntitlement c bound db e).2.2 := ⟨_, rfl⟩
  have report : (tickEntitlement c bound db e).2.1 = (settle e is (tickSessions c bound e (db.readable e) db).1).2 := by
    rw [eq]
    unfold tickEntitlement
    rw [live]
    rfl
  rw [← eq] at charged used
  have left : (e.consumedOnlineSeconds : Int) < budget := by
    simp only [Entitlement.exhausted, quota, Option.any_some, Bool.or_eq_false_iff, decide_eq_false_iff_not, not_le] at live
    exact live.2
  have remaining : 0 < (budget - e.consumedOnlineSeconds) * second := by
    unfold second
    omega
  have enough : (budget - e.consumedOnlineSeconds) * second ≤ total (·.whole) is * second := by
    unfold second
    omega
  obtain ⟨t, exact, found, walked, reached⟩ := crossing_reached remaining enough
  refine ⟨t, exact, ?_, charged ▸ walked, charged ▸ reached.earliest, reached.rounded, ?_⟩
  · have remains : max 0 (budget - (e.consumedOnlineSeconds : Int)) = budget - e.consumedOnlineSeconds := by omega
    have some : total (·.whole) is ≠ 0 := by omega
    rw [report, settle]
    simp only [if_neg some, quota, if_pos used, remains, found, Option.map_some]
  · obtain ⟨i, hi, startExact, exactStop, startT, tStop⟩ := reached.inside
    rw [← charged] at hi
    obtain ⟨⟨s, i⟩, mem, rfl⟩ := List.mem_map.mp hi
    have last : ((i.stop : Int) : ℚ) ≤ ceiling c e s := by
      rw [chargedTo_own nodup live] at mem
      obtain ⟨s', -, charge⟩ := List.mem_filterMap.mp mem
      obtain ⟨i', read, same⟩ := Option.map_eq_some_iff.mp charge
      cases same
      exact Int.cast_le.mpr (stop_le_ceiling pos read)
    exact ⟨s, i, mem, ⟨startExact, exactStop, .of_le_ceiling (exactStop.trans last)⟩,
      startT, tStop, .of_le_ceiling ((Int.cast_le.mpr tStop).trans last)⟩

end

def Entitlement.exhaustedRow (e : Entitlement) (budget t : Int) : Entitlement :=
  { e with consumedOnlineSeconds := budget.toNat, onlineTimeExhaustedAt := some t }

lemma tickEntitlement_row {t} (mem : e ∈ db.entitlements) (live : e.exhausted = false)
    (quota : e.timeQuotaSeconds = some budget) (reported : (tickEntitlement c bound db e).2.1 = some (e.id, t)) :
    e.exhaustedRow budget t ∈ (tickEntitlement c bound db e).1.entitlements := by
  rw [← (@tickSessions_frame c bound e db (db.readable e)).1] at mem
  unfold tickEntitlement settle at *
  rw [live] at reported ⊢
  simp only [quota, Bool.false_eq_true, if_false] at reported ⊢
  split_ifs at reported ⊢ with none enough
  obtain ⟨t', cross, same⟩ := Option.map_eq_some_iff.mp reported
  cases same
  rw [cross]
  exact List.mem_map.mpr ⟨e, mem, if_pos rfl⟩

lemma tickEntitlements_row {t} (nodup : (db.sessions.map (·.id)).Nodup)
    (apart : (es.map (·.id)).Nodup) (turn : e ∈ es) (mem : e ∈ db.entitlements) (live : e.exhausted = false)
    (quota : e.timeQuotaSeconds = some budget) (reported : (tickEntitlement c bound db e).2.1 = some (e.id, t)) :
    e.exhaustedRow budget t ∈ (tickEntitlements c bound es db).1.entitlements ∧ (e.id, t) ∈ (tickEntitlements c bound es db).2.1 := by
  induction es generalizing db with
  | nil => cases turn
  | cons x rest ih =>
    obtain ⟨fresh, apart⟩ := List.nodup_cons.mp apart
    rw [tickEntitlements_cons]
    rcases List.mem_cons.mp turn with rfl | later
    · refine ⟨mem_tickEntitlements (tickEntitlement_row mem live quota reported) fresh, ?_⟩
      rw [reported]
      exact List.mem_cons_self
    · have ne : e.id ≠ x.id := fun same => fresh (List.mem_map.mpr ⟨e, later, same⟩)
      obtain ⟨alike, order⟩ : Alike e db (tickEntitlement c bound db x).1 ∧ (tickEntitlement c bound db x).1.sessions = db.sessions :=
        alike_tickEntitlement nodup ne
      obtain ⟨row, report⟩ := ih (order ▸ nodup) apart later (mem_tickEntitlement mem ne) ((alike.report nodup).trans reported)
      exact ⟨row, List.mem_append_right _ report⟩

lemma p6TickOnlineTime_ok {r} (tick : p6TickOnlineTime c db = some r) :
    ∃ bound, 0 < bound ∧ c.maxChargeSeconds = some bound ∧ r = tickEntitlements c bound (db.due c) db := by
  unfold p6TickOnlineTime at tick
  split at tick
  case h_1 bound given =>
    split_ifs at tick with pos
    exact ⟨bound, pos, given, (Option.some_inj.mp tick).symm⟩
  case h_2 => cases tick

lemma chargedTo_tick (nodup : (db.sessions.map (·.id)).Nodup) (apart : (es.map (·.id)).Nodup) (turn : e ∈ es) :
    db.chargedTo e (tickEntitlements c bound es db).2.2 = db.chargedTo e (tickEntitlement c bound db e).2.2 := by
  obtain ⟨before, after, rfl⟩ := List.append_of_mem turn
  rw [tickEntitlements_eq nodup apart]
  rw [List.map_append, List.map_cons, List.nodup_append, List.nodup_cons] at apart
  obtain ⟨-, ⟨later, -⟩, earlier⟩ := apart
  have ne₀ : ∀ x ∈ before, x.id ≠ e.id := fun x hx =>
    earlier x.id (List.mem_map_of_mem hx) e.id List.mem_cons_self
  have ne₁ : ∀ x ∈ after, x.id ≠ e.id := fun x hx same => later (List.mem_map.mpr ⟨x, hx, same⟩)
  dsimp only
  rw [List.flatMap_append, List.flatMap_cons, chargedTo_append, chargedTo_append, chargedTo_others nodup ne₀,
    chargedTo_others nodup ne₁, List.nil_append, List.append_nil]

end

/-- For every tick and every entitlement it visits that is not exhausted: if the seconds charged to its sessions reach its budget,
the exhaustion is recorded and reported at an instant that is dated exactly, the same for every order of the session rows. -/
theorem exhaustion_dated_exactly {c : Call} {db : Db} {r : Db × List (Nat × Int) × List (Nat × Read)}
    (sessions : (db.sessions.map (·.id)).Nodup) (entitlements : (db.entitlements.map (·.id)).Nodup)
    (tick : p6TickOnlineTime c db = some r) {e : Entitlement} (due : e ∈ db.due c) (live : e.exhausted = false) {budget : Int}
    (quota : e.timeQuotaSeconds = some budget)
    (used : budget ≤ e.consumedOnlineSeconds + total (·.2.whole) (db.chargedTo e r.2.2)) :
    ∃ t exact, Dated c e (db.chargedTo e r.2.2) ((budget - e.consumedOnlineSeconds) * second) exact t ∧
      ∀ rows : List Session, rows.Perm db.sessions → ∃ r', p6TickOnlineTime c { db with sessions := rows } = some r' ∧
        e.exhaustedRow budget t ∈ r'.1.entitlements ∧ (e.id, t) ∈ r'.2.1 := by
  obtain ⟨bound, pos, given, rfl⟩ := p6TickOnlineTime_ok tick
  have apart : ((db.due c).map (·.id)).Nodup := entitlements.sublist (List.filter_sublist.map _)
  have mem : e ∈ db.entitlements := (List.mem_filter.mp due).1
  rw [chargedTo_tick sessions apart due] at used ⊢
  rw [← total_map (h := fun x : Session × Interval => x.2) (g := Interval.whole), intervals_own sessions live] at used
  obtain ⟨t, exact, reported, dated⟩ := tickEntitlement_dated sessions live pos quota used
  refine ⟨t, exact, dated, fun rows perm => ?_⟩
  have alike : Alike e db { db with sessions := rows } := ⟨perm, rfl, fun _ _ _ => rfl⟩
  have nodup : (rows.map (·.id)).Nodup := (perm.map _).nodup_iff.mpr sessions
  have again : p6TickOnlineTime c { db with sessions := rows } =
      some (tickEntitlements c bound (db.due c) { db with sessions := rows }) := by
    unfold p6TickOnlineTime
    rw [given]
    exact if_pos pos
  exact ⟨_, again, tickEntitlements_row nodup apart due mem live quota
    ((alike.report sessions).trans reported)⟩

/-- Ten seconds of online time, of which four were used. -/
def tenSeconds : Entitlement := ⟨1, ⟨1, 1⟩, .active, .aggregateOnlineTime, some 10, 4, none, some (30 * second)⟩

/-- A phone charged from 10 s on, and a laptop that joined at 12 s and left at 14 s. -/
def overlapping : Db :=
  { entitlements := [tenSeconds]
    sessions := [⟨1, 1, .active, 0, none⟩, ⟨2, 1, .ended, 12 * second, some (14 * second)⟩]
    watermarks := [⟨1, 10 * second, 4⟩, ⟨2, 12 * second, 0⟩]
    skipped := []
    adjustmentEvidence := fun _ => none }

def tickAt16 : Call := ⟨⟨1, 1⟩, 16 * second, some 30, [], []⟩

/-- Two seconds alone, and two together: the six left are used up at 14 s. -/
theorem overlapping_exhausted_at_14 : ∃ r exact, p6TickOnlineTime tickAt16 overlapping = some r ∧ r.2.1 = [(1, 14 * second)] ∧
    Dated tickAt16 tenSeconds (overlapping.chargedTo tenSeconds r.2.2) (6 * second) exact (14 * second) := by
  obtain ⟨r, tick⟩ : ∃ r, p6TickOnlineTime tickAt16 overlapping = some r := ⟨_, rfl⟩
  have reports : r.2.1 = [(1, 14 * second)] := by
    have value : (p6TickOnlineTime tickAt16 overlapping).map (·.2.1) = some [(1, 14 * second)] := by decide +kernel
    rw [tick] at value
    exact Option.some_inj.mp value
  have charged : total (·.2.whole) (overlapping.chargedTo tenSeconds r.2.2) = 8 := by
    have value : (p6TickOnlineTime tickAt16 overlapping).map
        (fun r => total (·.2.whole) (overlapping.chargedTo tenSeconds r.2.2)) = some 8 := by decide +kernel
    rw [tick] at value
    exact Option.some_inj.mp value
  obtain ⟨t, exact, dated, orders⟩ := exhaustion_dated_exactly (e := tenSeconds) (by decide) (by decide) tick (by decide)
    (by decide) (show tenSeconds.timeQuotaSeconds = some 10 from rfl) (by rw [charged]; decide)
  obtain ⟨r', same, -, report⟩ := orders overlapping.sessions (.refl _)
  rw [show ({ overlapping with sessions := overlapping.sessions } : Db) = overlapping from rfl, tick, Option.some_inj] at same
  rw [← same, reports, List.mem_singleton] at report
  cases report
  exact ⟨r, exact, tick, reports, dated⟩

end StayConnect.Online
