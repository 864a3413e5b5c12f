import Mathlib.Algebra.BigOperators.Group.List.Basic
import Mathlib.Algebra.Order.Field.Basic
import Mathlib.Order.Bounds.Basic
import Mathlib.Tactic.Lemma
import Mathlib.Tactic.Linarith
import Mathlib.Tactic.Ring
import Mathlib.Tactic.FieldSimp

/-!
# What overlapping spans accrue

Spans of time that may overlap accrue together: up to an instant, each contributes the part of it that has passed. Between two
instants that no span begins or ends between, the total grows at a constant rate, the number of spans that cover both
(`accrued_segment`). So the earliest instant at which the total reaches an amount is found in the first segment that reaches it
(`isLeast_crossing`).
-/

namespace StayConnect.Accrual

variable {K : Type*} [Field K] [LinearOrder K]

def passed (s : K × K) (t : K) : K := max 0 (min t s.2 - s.1)

/-- What the spans accrue up to an instant. -/
def accrued (ss : List (K × K)) (t : K) : K := (ss.map fun s => passed s t).sum

def Covers (s : K × K) (p₀ p₁ : K) : Prop := s.1 ≤ p₀ ∧ p₁ ≤ s.2

instance (s : K × K) (p₀ p₁ : K) : Decidable (Covers s p₀ p₁) := inferInstanceAs (Decidable (_ ∧ _))

/-- How many spans cover the segment. -/
def burning (ss : List (K × K)) (p₀ p₁ : K) : Nat := ss.countP fun s => Covers s p₀ p₁

/-- The span begins and ends at or outside the ends of the segment. -/
def Apart (s : K × K) (p₀ p₁ : K) : Prop := (s.1 ≤ p₀ ∨ p₁ ≤ s.1) ∧ (s.2 ≤ p₀ ∨ p₁ ≤ s.2)

@[simp] lemma accrued_nil (t : K) : accrued [] t = 0 := rfl

@[simp] lemma accrued_cons (s : K × K) (ss : List (K × K)) (t : K) : accrued (s :: ss) t = passed s t + accrued ss t := rfl

variable [IsStrictOrderedRing K] {s : K × K} {ss : List (K × K)} {p₀ p₁ r t x : K}

lemma passed_mono (h : t ≤ x) : passed s t ≤ passed s x := by
  unfold passed
  have : min t s.2 ≤ min x s.2 := min_le_min_right _ h
  exact max_le_max le_rfl (by linarith)

lemma accrued_mono (h : t ≤ x) : accrued ss t ≤ accrued ss x := by
  induction ss with
  | nil => exact le_rfl
  | cons s rest ih => exact add_le_add (passed_mono h) ih

lemma passed_before (h : t ≤ s.1) : passed s t = 0 := by
  unfold passed
  have : min t s.2 ≤ t := min_le_left _ _
  exact max_eq_left (by linarith)

lemma passed_after (fwd : s.1 ≤ s.2) (h : s.2 ≤ t) : passed s t = s.2 - s.1 := by
  unfold passed
  rw [min_eq_right h]
  exact max_eq_right (by linarith)

lemma passed_within (begun : s.1 ≤ t) (running : t ≤ s.2) : passed s t = t - s.1 := by
  unfold passed
  rw [min_eq_left running]
  exact max_eq_right (by linarith)

/-- A span that no end of falls inside a segment grows there at rate one if it covers it, and not at all otherwise. -/
lemma passed_segment (fwd : s.1 ≤ s.2) (apart : Apart s p₀ p₁) (lt : p₀ < p₁) (le₀ : p₀ ≤ x) (le₁ : x ≤ p₁) :
    passed s x = passed s p₀ + (x - p₀) * if Covers s p₀ p₁ then 1 else 0 := by
  obtain ⟨begins, ends⟩ := apart
  rcases begins with begun | later
  · rcases ends with ended | running
    · have not : ¬ Covers s p₀ p₁ := fun c => absurd (c.2.trans ended) (not_le.mpr lt)
      rw [if_neg not, passed_after fwd ended, passed_after fwd (ended.trans le₀)]
      ring
    · rw [if_pos ⟨begun, running⟩, passed_within begun (lt.le.trans running),
        passed_within (begun.trans le₀) (le₁.trans running)]
      ring
  · have not : ¬ Covers s p₀ p₁ := fun c => absurd (later.trans c.1) (not_le.mpr lt)
    rw [if_neg not, passed_before (lt.le.trans later), passed_before (le₁.trans later)]
    ring

/-- In a segment that no span begins or ends inside, the total grows at the rate of the spans that cover it. -/
lemma accrued_segment (fwd : ∀ s ∈ ss, s.1 ≤ s.2) (apart : ∀ s ∈ ss, Apart s p₀ p₁) (lt : p₀ < p₁) (le₀ : p₀ ≤ x)
    (le₁ : x ≤ p₁) : accrued ss x = accrued ss p₀ + (x - p₀) * burning ss p₀ p₁ := by
  induction ss with
  | nil => simp [burning]
  | cons s rest ih =>
    have head := passed_segment (fwd s List.mem_cons_self) (apart s List.mem_cons_self) lt le₀ le₁
    have tail := ih (fun s hs => fwd s (List.mem_cons_of_mem _ hs)) fun s hs => apart s (List.mem_cons_of_mem _ hs)
    have count : (burning (s :: rest) p₀ p₁ : K) = burning rest p₀ p₁ + if Covers s p₀ p₁ then 1 else 0 := by
      unfold burning
      rw [List.countP_cons]
      push_cast
      by_cases covers : Covers s p₀ p₁
      · simp [covers]
      · simp [covers]
    rw [accrued_cons, accrued_cons, head, tail, count]
    ring

lemma accrued_before (h : ∀ s ∈ ss, t ≤ s.1) : accrued ss t = 0 := by
  induction ss with
  | nil => rfl
  | cons s rest ih =>
    rw [accrued_cons, passed_before (h s List.mem_cons_self), ih fun s hs => h s (List.mem_cons_of_mem _ hs), add_zero]

lemma accrued_after (fwd : ∀ s ∈ ss, s.1 ≤ s.2) (h : ∀ s ∈ ss, s.2 ≤ t) : accrued ss t = (ss.map fun s => s.2 - s.1).sum := by
  induction ss with
  | nil => rfl
  | cons s rest ih =>
    rw [accrued_cons, passed_after (fwd s List.mem_cons_self) (h s List.mem_cons_self),
      ih (fun s hs => fwd s (List.mem_cons_of_mem _ hs)) fun s hs => h s (List.mem_cons_of_mem _ hs)]
    rfl

/-- The instant in a segment at which an amount is reached. -/
def crossing (ss : List (K × K)) (p₀ p₁ r : K) : K := p₀ + (r - accrued ss p₀) / burning ss p₀ p₁

/-- In the first segment that reaches an amount, the instant computed from the rate is the earliest at which it is reached; it
lies in the segment, and in a span that covers it. -/
lemma isLeast_crossing (fwd : ∀ s ∈ ss, s.1 ≤ s.2) (apart : ∀ s ∈ ss, Apart s p₀ p₁) (lt : p₀ < p₁)
    (before : accrued ss p₀ < r) (reached : r ≤ accrued ss p₁) :
    IsLeast {t | r ≤ accrued ss t} (crossing ss p₀ p₁ r) ∧ p₀ < crossing ss p₀ p₁ r ∧ crossing ss p₀ p₁ r ≤ p₁ ∧
      ∃ s ∈ ss, Covers s p₀ p₁ := by
  have grows := accrued_segment fwd apart lt lt.le le_rfl
  have rising : 0 < (p₁ - p₀) * (burning ss p₀ p₁ : K) := by linarith
  have rate : 0 < (burning ss p₀ p₁ : K) := pos_of_mul_pos_right rising (by linarith)
  have after : p₀ < crossing ss p₀ p₁ r := by
    have : 0 < (r - accrued ss p₀) / burning ss p₀ p₁ := div_pos (by linarith) rate
    unfold crossing
    linarith
  have within : crossing ss p₀ p₁ r ≤ p₁ := by
    have : (r - accrued ss p₀) / burning ss p₀ p₁ ≤ p₁ - p₀ := by
      rw [div_le_iff₀ rate]
      linarith
    unfold crossing
    linarith
  have exact : ∀ x, p₀ ≤ x → x ≤ p₁ → accrued ss x = accrued ss p₀ + (x - p₀) * burning ss p₀ p₁ :=
    fun x le₀ le₁ => accrued_segment fwd apart lt le₀ le₁
  refine ⟨⟨?_, ?_⟩, after, within, ?_⟩
  · have value : accrued ss (crossing ss p₀ p₁ r) = r := by
      rw [exact _ after.le within, crossing]
      field_simp
      ring
    exact value.ge
  · intro x hx
    by_contra early
    rw [not_le] at early
    by_cases le₀ : p₀ ≤ x
    · have less : (x - p₀) * burning ss p₀ p₁ < r - accrued ss p₀ := by
        rw [← lt_div_iff₀ rate]
        unfold crossing at early
        linarith
      have reached : r ≤ accrued ss x := hx
      rw [exact x le₀ (early.le.trans within)] at reached
      linarith
    · have : accrued ss x ≤ accrued ss p₀ := accrued_mono (not_le.mp le₀).le
      have reached : r ≤ accrued ss x := hx
      linarith
  · have some : 0 < burning ss p₀ p₁ := by exact_mod_cast rate
    obtain ⟨s, hs, covers⟩ := List.countP_pos_iff.mp some
    exact ⟨s, hs, of_decide_eq_true covers⟩

end StayConnect.Accrual
