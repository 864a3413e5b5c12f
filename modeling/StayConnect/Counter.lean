import StayConnect.Keyed
import Mathlib.Data.List.Dedup

/-!
# Streams of counter readings

A stream is a list of readings `(k, n)`, oldest first: the counter named `k` stood at `n`. Its growth is the
sum, over the counters named, of the last reading less the first one. `growth_snoc` says how one more reading
changes it: a counter seen for the first time adds nothing, a counter seen before adds the difference to its
last reading, so the differences along a stream telescope to its growth.
-/

namespace StayConnect.Counter

variable {κ : Type*} [DecidableEq κ]

def firstOf (k : κ) (l : List (κ × Nat)) : Option Nat := (Keyed.lookup Prod.fst k l).map Prod.snd

def lastOf (k : κ) (l : List (κ × Nat)) : Option Nat := firstOf k l.reverse

/-- The last reading less the first. -/
def growthOf (l : List (κ × Nat)) (k : κ) : Nat := (lastOf k l).getD 0 - (firstOf k l).getD 0

/-- No counter was read below its first reading in the end. -/
def Forward (l : List (κ × Nat)) : Prop := ∀ k f m, firstOf k l = some f → lastOf k l = some m → f ≤ m

def growth (l : List (κ × Nat)) : Nat := Keyed.total (growthOf l) (l.map Prod.fst).dedup

section
variable {k k' : κ} {n : Nat} {l : List (κ × Nat)}

lemma firstOf_eq_none : firstOf k l = none ↔ k ∉ l.map Prod.fst := by
  unfold firstOf Keyed.lookup
  rw [Option.map_eq_none_iff, List.find?_eq_none]
  simp only [decide_eq_true_eq, List.mem_map, not_exists, not_and]

lemma firstOf_snoc (seen : k ∈ l.map Prod.fst) : firstOf k (l ++ [(k', n)]) = firstOf k l := by
  unfold firstOf Keyed.lookup
  rw [List.find?_append]
  cases h : l.find? fun x => decide (x.1 = k) with
  | some x => rfl
  | none => exact absurd (firstOf_eq_none.mp (by unfold firstOf Keyed.lookup; rw [h]; rfl)) (not_not.mpr seen)

lemma firstOf_snoc_new (fresh : k ∉ l.map Prod.fst) : firstOf k (l ++ [(k, n)]) = some n := by
  have none := firstOf_eq_none.mpr fresh
  unfold firstOf Keyed.lookup at none ⊢
  rw [List.find?_append, Option.map_eq_none_iff.mp none]
  simp

lemma firstOf_snoc_ne (ne : k ≠ k') : firstOf k (l ++ [(k', n)]) = firstOf k l := by
  simp [firstOf, Keyed.lookup, ne.symm]

@[simp] lemma lastOf_snoc_self : lastOf k (l ++ [(k, n)]) = some n := by
  simp [lastOf, firstOf, Keyed.lookup]

lemma lastOf_snoc_ne (ne : k ≠ k') : lastOf k (l ++ [(k', n)]) = lastOf k l := by
  simp [lastOf, firstOf, Keyed.lookup, ne.symm]

lemma mem_of_lastOf {m} (last : lastOf k l = some m) : k ∈ l.map Prod.fst := by
  by_contra fresh
  have : lastOf k l = none := firstOf_eq_none.mpr (by simpa using fresh)
  rw [this] at last
  cases last

lemma Forward.snoc_new (h : Forward l) (fresh : k ∉ l.map Prod.fst) : Forward (l ++ [(k, n)]) := by
  intro k' f m first last
  by_cases same : k' = k
  · subst same
    rw [firstOf_snoc_new fresh] at first
    rw [lastOf_snoc_self] at last
    cases first
    cases last
    exact le_rfl
  · rw [firstOf_snoc_ne same] at first
    rw [lastOf_snoc_ne same] at last
    exact h k' f m first last

lemma Forward.snoc_old {m} (h : Forward l) (last : lastOf k l = some m) (grown : m ≤ n) : Forward (l ++ [(k, n)]) := by
  intro k' f m' first last'
  by_cases same : k' = k
  · subst same
    rw [firstOf_snoc (mem_of_lastOf last)] at first
    rw [lastOf_snoc_self] at last'
    cases last'
    exact (h k' f m first last).trans grown
  · rw [firstOf_snoc_ne same] at first
    rw [lastOf_snoc_ne same] at last'
    exact h k' f m' first last'

lemma growthOf_snoc_ne (seen : k ∈ l.map Prod.fst) (ne : k ≠ k') : growthOf (l ++ [(k', n)]) k = growthOf l k := by
  unfold growthOf
  rw [lastOf_snoc_ne ne, firstOf_snoc seen]

lemma growth_snoc_new (fresh : k ∉ l.map Prod.fst) : growth (l ++ [(k, n)]) = growth l := by
  have keys : ((l ++ [(k, n)]).map Prod.fst).dedup.Perm (k :: (l.map Prod.fst).dedup) := by
    rw [List.map_append, List.map_cons, List.map_nil]
    refine (List.Perm.dedup List.perm_append_comm).trans ?_
    rw [List.singleton_append, List.dedup_cons_of_notMem fresh]
  have self : growthOf (l ++ [(k, n)]) k = 0 := by
    unfold growthOf
    rw [lastOf_snoc_self, firstOf_snoc_new fresh]
    simp
  unfold growth
  rw [Keyed.total_perm keys, Keyed.total_cons, self, Nat.zero_add]
  apply Keyed.total_congr
  intro k' hk'
  have seen := List.mem_dedup.mp hk'
  exact growthOf_snoc_ne seen fun same => fresh (same ▸ seen)

lemma growth_snoc_old {m} (forward : Forward l) (last : lastOf k l = some m) (grown : m ≤ n) :
    growth (l ++ [(k, n)]) = growth l + (n - m) := by
  have seen := mem_of_lastOf last
  have keys : ((l ++ [(k, n)]).map Prod.fst).dedup.Perm (l.map Prod.fst).dedup := by
    rw [List.map_append, List.map_cons, List.map_nil]
    refine (List.Perm.dedup List.perm_append_comm).trans ?_
    rw [List.singleton_append, List.dedup_cons_of_mem seen]
  obtain ⟨f, hf⟩ : ∃ f, firstOf k l = some f := by
    cases h : firstOf k l with
    | some f => exact ⟨f, rfl⟩
    | none => exact absurd seen (firstOf_eq_none.mp h)
  have self : growthOf (l ++ [(k, n)]) k = growthOf l k + (n - m) := by
    have := forward k f m hf last
    unfold growthOf
    rw [lastOf_snoc_self, firstOf_snoc seen, last, hf]
    simp only [Option.getD_some]
    omega
  unfold growth
  rw [Keyed.total_perm keys]
  -- the one counter read again is taken out of the total on both sides
  have split := List.perm_cons_erase (List.mem_dedup.mpr seen)
  rw [Keyed.total_perm split, Keyed.total_perm (g := growthOf l) split, Keyed.total_cons, Keyed.total_cons, self]
  have rest : Keyed.total (growthOf (l ++ [(k, n)])) ((l.map Prod.fst).dedup.erase k) =
      Keyed.total (growthOf l) ((l.map Prod.fst).dedup.erase k) := by
    apply Keyed.total_congr
    intro k' hk'
    have mem := (List.Nodup.mem_erase_iff (List.nodup_dedup _)).mp hk'
    exact growthOf_snoc_ne (List.mem_dedup.mp mem.2) mem.1
  rw [rest]
  omega

end

end StayConnect.Counter
