import Mathlib.Algebra.BigOperators.Group.List.Basic
import Mathlib.Algebra.Order.BigOperators.Group.List
import Mathlib.Algebra.Order.Ring.Int
import Mathlib.Tactic.Lemma

/-!
# The continuity block

For the sessions of a plan acctd states what netd may rely on when plans stop: a hard end for each session, tightened by every bound
that is known of it, and one byte budget for each entitlement with a quota. Times are nanoseconds. `int64` arithmetic wraps (`i64`);
what is wrapped from above is smaller, so only differences far below zero and the margins have to be in range.
-/

namespace StayConnect.Enforce

def i64 (n : Int) : Int := (n + 2 ^ 63) % 2 ^ 64 - 2 ^ 63

def second : Int := 10 ^ 9

def budgetMarginSeconds : Int := 60

def timeMarginSeconds : Int := 120

def maxContinuityWindowSeconds : Int := 120 * 60

structure ContinuityRow where
  sessionID : String
  entitlementID : String
  started : Int
  /-- 0 for none. -/
  maxSessionSec : Int
  dataQuota : Option Int
  dataConsumed : Int
  countsTime : Bool
  timeQuota : Option Int
  timeConsumed : Int
  windowEndsAt : Option Int
  downKbps : Int
  upKbps : Int

structure Continuity where
  windowSeconds : Int
  asOf : Int
  sessions : List (String × Option Int)
  budgets : List (String × Int)
  contentsHash : String := ""

/-- `UnratedAssumedKbps` stands in for a session without a ceiling. -/
def rated (kbps : Int) : Int := if kbps ≤ 0 then 1000000 else kbps

def live (rows : List ContinuityRow) (id : String) : Int := rows.countP (·.entitlementID = id)

namespace ContinuityRow

def marginBytes (r : ContinuityRow) : Int := i64 (i64 (i64 (rated r.downKbps + rated r.upKbps) * 125) * budgetMarginSeconds)

def marginOf (rows : List ContinuityRow) (id : String) : Int :=
  (rows.filter (·.entitlementID = id)).foldl (fun m r => i64 (m + r.marginBytes)) 0

def timeLeft (r : ContinuityRow) (quota : Int) : Int := i64 (i64 (quota - r.timeConsumed) - timeMarginSeconds)

def bytesLeft (rows : List ContinuityRow) (r : ContinuityRow) (quota : Int) : Int :=
  i64 (i64 (quota - r.dataConsumed) - marginOf rows r.entitlementID)

def tighten : Option Int → Int → Option Int
  | none, t => some t
  | some e, t => some (if t < e then t else e)

/-- What the end of a session is tightened by, in this order. -/
def bounds (rows : List ContinuityRow) (asOf : Int) (r : ContinuityRow) : List Int :=
  (if 0 < r.maxSessionSec then [r.started + i64 (r.maxSessionSec * second)] else []) ++
  (match r.countsTime, r.timeQuota with
    | true, some q =>
      let n := if live rows r.entitlementID < 1 then 1 else live rows r.entitlementID
      if r.timeLeft q ≤ 0 then [asOf] else [asOf + i64 (r.timeLeft q / n * second)]
    | _, _ => []) ++
  match r.dataQuota with
  | some q => if bytesLeft rows r q ≤ 0 then [asOf] else []
  | none => []

def hardEnd (rows : List ContinuityRow) (asOf : Int) (r : ContinuityRow) : Option Int :=
  (r.bounds rows asOf).foldl tighten r.windowEndsAt

def addBudget (rows : List ContinuityRow) (budgets : List (String × Int)) (r : ContinuityRow) : List (String × Int) :=
  match r.dataQuota with
  | some q =>
    if budgets.any (·.1 = r.entitlementID) then budgets
    else budgets ++ [(r.entitlementID, if bytesLeft rows r q < 0 then 0 else bytesLeft rows r q)]
  | none => budgets

end ContinuityRow

open ContinuityRow

def buildContinuity (hashContinuity : Continuity → String) (rows : List ContinuityRow) (window asOf : Int) : Option Continuity :=
  if window ≤ 0 then none
  else
    let window := if maxContinuityWindowSeconds * second < window then maxContinuityWindowSeconds * second else window
    let c : Continuity :=
      ⟨window / second, asOf, rows.map fun r => (r.sessionID, r.hardEnd rows asOf), rows.foldl (addBudget rows) [], ""⟩
    some { c with contentsHash := hashContinuity c }

variable {rows : List ContinuityRow} {r : ContinuityRow} {asOf q x : Int} {id : String}

lemma i64_le {n} (h : -2 ^ 63 ≤ n) : i64 n ≤ n := by
  unfold i64
  omega

lemma i64_of_mem {n} (h : -2 ^ 63 ≤ n) (h' : n < 2 ^ 63) : i64 n = n := by
  unfold i64
  omega

lemma i64_sub {a b} : i64 (i64 a - b) = i64 (a - b) := by
  unfold i64
  omega

/-- 60 s of a session's full rate. -/
def ContinuityRow.fullRate (r : ContinuityRow) : Int := (rated r.downKbps + rated r.upKbps) * 125 * budgetMarginSeconds

/-- 60 s of the full rate of every session of the entitlement. -/
def fullRates (rows : List ContinuityRow) (id : String) : Int := ((rows.filter (·.entitlementID = id)).map fullRate).sum

/-- No margin overflows, and no difference is below the least `int64`. -/
structure InRange (rows : List ContinuityRow) : Prop where
  margin : ∀ r ∈ rows, fullRates rows r.entitlementID < 2 ^ 63
  time : ∀ r ∈ rows, ∀ q, r.timeQuota = some q → -2 ^ 63 ≤ q - r.timeConsumed - timeMarginSeconds
  data : ∀ r ∈ rows, ∀ q, r.dataQuota = some q → -2 ^ 63 ≤ q - r.dataConsumed - fullRates rows r.entitlementID

lemma fullRate_pos : 0 < r.fullRate := by
  simp only [fullRate, rated, budgetMarginSeconds]
  split <;> split <;> omega

lemma foldl_margin {l : List ContinuityRow} {m : Int} (pos : 0 ≤ m) (fits : m + (l.map fullRate).sum < 2 ^ 63) :
    l.foldl (fun m r => i64 (m + r.marginBytes)) m = m + (l.map fullRate).sum := by
  induction l generalizing m with
  | nil => simp
  | cons r rest ih =>
    have rest_pos : 0 ≤ (rest.map fullRate).sum :=
      List.sum_nonneg fun y hy => by obtain ⟨r, -, rfl⟩ := List.mem_map.mp hy; exact fullRate_pos.le
    have r_pos := @fullRate_pos r
    rw [List.map_cons, List.sum_cons] at fits
    have margin : r.marginBytes = r.fullRate := by
      simp only [marginBytes, fullRate, budgetMarginSeconds] at *
      rw [i64_of_mem (n := _ + _) (by omega) (by omega), i64_of_mem (n := _ * 125) (by omega) (by omega),
        i64_of_mem (by omega) (by omega)]
    rw [List.foldl_cons, margin, i64_of_mem (by omega) (by omega), ih (by omega) (by omega), List.map_cons, List.sum_cons]
    omega

lemma bytesLeft_eq (range : InRange rows) (mem : r ∈ rows) : bytesLeft rows r q = i64 (q - r.dataConsumed - fullRates rows r.entitlementID) := by
  have margin : marginOf rows r.entitlementID = fullRates rows r.entitlementID := by
    have sum := range.margin r mem
    unfold fullRates at sum
    rw [marginOf, foldl_margin (le_refl 0) (by omega), zero_add, fullRates]
  rw [bytesLeft, i64_sub, margin]

lemma foldl_tighten {l e} :
    (∀ x, l.foldl tighten e = some x → (∀ t ∈ l, x ≤ t) ∧ ∀ y, e = some y → x ≤ y) ∧ ((l ≠ [] ∨ e.isSome) → (l.foldl tighten e).isSome) := by
  induction l generalizing e with
  | nil => simp +contextual
  | cons t rest ih =>
    have tightened : ∃ y, tighten e t = some y ∧ y ≤ t ∧ ∀ z, e = some z → y ≤ z := by
      cases e with
      | none => exact ⟨t, rfl, le_refl t, nofun⟩
      | some e =>
        refine ⟨_, rfl, ?_, ?_⟩
        · split <;> omega
        · rintro z ⟨⟩
          split <;> omega
    obtain ⟨y, eq, le, below⟩ := tightened
    obtain ⟨bound, found⟩ := @ih (some y)
    rw [List.foldl_cons, eq]
    refine ⟨fun x hx => ?_, fun _ => found (.inr rfl)⟩
    obtain ⟨all, first⟩ := bound x hx
    refine ⟨fun s hs => ?_, fun z hz => (first y rfl).trans (below z hz)⟩
    rcases List.mem_cons.mp hs with rfl | hs
    · exact (first y rfl).trans le
    · exact all s hs

lemma hardEnd_le (ends : r.hardEnd rows asOf = some x) {t} (mem : t ∈ r.bounds rows asOf) : x ≤ t := (foldl_tighten.1 x ends).1 t mem

lemma hardEnd_some {t} (mem : t ∈ r.bounds rows asOf) : ∃ x, r.hardEnd rows asOf = some x ∧ x ≤ t := by
  obtain ⟨x, ends⟩ := Option.isSome_iff_exists.mp (foldl_tighten.2 (.inl (List.ne_nil_of_mem mem)))
  exact ⟨x, ends, hardEnd_le ends mem⟩

lemma live_pos (mem : r ∈ rows) : 0 < live rows r.entitlementID := by
  have : 0 < rows.countP (·.entitlementID = r.entitlementID) := List.countP_pos_iff.mpr ⟨r, mem, by simp⟩
  unfold live
  omega

/-- What is left of a time allowance less the margin, in seconds. -/
def allowance (r : ContinuityRow) (quota : Int) : Int := max 0 (quota - r.timeConsumed - timeMarginSeconds)

/-- A session of a time-limited entitlement has a hard end, no later than its share of the allowance. -/
lemma hardEnd_time (asOf : Int) (range : InRange rows) (mem : r ∈ rows) (counts : r.countsTime) (quota : r.timeQuota = some q) :
    ∃ x, r.hardEnd rows asOf = some x ∧ x - asOf ≤ allowance r q / live rows r.entitlementID * second := by
  have n := live_pos mem
  have one : ¬ live rows r.entitlementID < 1 := by omega
  have left : r.timeLeft q ≤ allowance r q := by
    rw [timeLeft, i64_sub]
    exact (i64_le (range.time r mem q quota)).trans (le_max_right _ _)
  have spread : 0 ≤ allowance r q / live rows r.entitlementID := Int.ediv_nonneg (le_max_left _ _) n.le
  by_cases gone : r.timeLeft q ≤ 0
  · obtain ⟨x, ends, le⟩ := hardEnd_some (show asOf ∈ r.bounds rows asOf by simp [bounds, counts, quota, gone])
    exact ⟨x, ends, by unfold second; omega⟩
  have share := Int.ediv_le_ediv n left
  have positive : 0 ≤ r.timeLeft q / live rows r.entitlementID := Int.ediv_nonneg (by omega) n.le
  have bound : asOf + i64 (r.timeLeft q / live rows r.entitlementID * second) ∈ r.bounds rows asOf := by
    simp [bounds, counts, quota, gone, one]
  obtain ⟨x, ends, le⟩ := hardEnd_some bound
  have wrapped := i64_le (n := r.timeLeft q / live rows r.entitlementID * second) (by unfold second; omega)
  unfold second at wrapped le
  exact ⟨x, ends, by unfold second; omega⟩

lemma shares_le {a n} (pos : 0 ≤ a) : n * (a / n * second) ≤ a * second := by
  rcases eq_or_ne n 0 with rfl | h
  · rw [zero_mul]
    exact mul_nonneg pos (by decide)
  · rw [← mul_assoc]
    exact mul_le_mul_of_nonneg_right (Int.mul_ediv_self_le h) (by decide)

lemma sum_hardEnd (range : InRange rows) {left} (pos : 0 ≤ left)
    (limited : ∀ r ∈ rows, r.entitlementID = id → ∃ q, r.countsTime ∧ r.timeQuota = some q ∧ allowance r q = left) :
    ((rows.filter (·.entitlementID = id)).map fun r => (r.hardEnd rows asOf).getD asOf - asOf).sum ≤ left * second := by
  have each : ∀ d ∈ (rows.filter (·.entitlementID = id)).map fun r => (r.hardEnd rows asOf).getD asOf - asOf,
      d ≤ left / live rows id * second := by
    intro d hd
    obtain ⟨r, hr, rfl⟩ := List.mem_map.mp hd
    obtain ⟨mem, rfl⟩ : r ∈ rows ∧ r.entitlementID = id := by simpa using hr
    obtain ⟨q, counts, quota, rfl⟩ := limited r mem rfl
    obtain ⟨x, ends, le⟩ := hardEnd_time asOf range mem counts quota
    rw [ends]
    exact le
  have total := List.sum_le_card_nsmul _ _ each
  rw [List.length_map, ← List.countP_eq_length_filter, nsmul_eq_mul] at total
  exact total.trans (shares_le pos)

/-- The budgets after the rows `seen`: one for each entitlement with a quota, of one of its rows. -/
structure Budgeted (rows seen : List ContinuityRow) (budgets : List (String × Int)) : Prop where
  nodup : (budgets.map (·.1)).Nodup
  mem : ∀ r ∈ seen, r.dataQuota.isSome → r.entitlementID ∈ budgets.map (·.1)
  left : ∀ b ∈ budgets, ∃ r ∈ rows, ∃ q, r.entitlementID = b.1 ∧ r.dataQuota = some q ∧ b.2 = max 0 (bytesLeft rows r q)

lemma Budgeted.add {seen budgets} (h : Budgeted rows seen budgets) (mem : r ∈ rows) :
    Budgeted rows (r :: seen) (addBudget rows budgets r) := by
  unfold addBudget
  cases quota : r.dataQuota with
  | none => exact ⟨h.nodup, List.forall_mem_cons.mpr ⟨by simp [quota], h.mem⟩, h.left⟩
  | some q =>
    dsimp only
    split
    case isTrue known => exact ⟨h.nodup, List.forall_mem_cons.mpr ⟨fun _ => by simpa using known, h.mem⟩, h.left⟩
    case isFalse unknown =>
      have unknown : r.entitlementID ∉ budgets.map (·.1) := by simpa using unknown
      refine ⟨?_, List.forall_mem_cons.mpr ⟨by simp, fun r' seen some => ?_⟩, ?_⟩
      · rw [List.map_append, List.nodup_append]
        refine ⟨h.nodup, by simp, fun a ha b hb eq => unknown ?_⟩
        have same : a = r.entitlementID := eq.trans (List.mem_singleton.mp hb)
        exact same ▸ ha
      · rw [List.map_append]
        exact List.mem_append_left _ (h.mem r' seen some)
      · rw [List.forall_mem_append, List.forall_mem_singleton]
        exact ⟨h.left, r, mem, q, rfl, quota, by dsimp only; split <;> omega⟩

lemma foldl_addBudget {seen rest : List ContinuityRow} {budgets : List (String × Int)} (h : Budgeted rows seen budgets)
    (sub : ∀ r ∈ rest, r ∈ rows) : Budgeted rows (rest.reverse ++ seen) (rest.foldl (addBudget rows) budgets) := by
  induction rest generalizing seen budgets with
  | nil => exact h
  | cons r rest ih =>
    obtain ⟨mem, sub⟩ := List.forall_mem_cons.mp sub
    simpa using ih (h.add mem) sub

lemma buildContinuity_some {hash window c} (built : buildContinuity hash rows window asOf = some c) :
    c.sessions = rows.map (fun r => (r.sessionID, r.hardEnd rows asOf)) ∧ c.budgets = rows.foldl (addBudget rows) [] := by
  unfold buildContinuity at built
  split at built
  · cases built
  · cases built
    exact ⟨rfl, rfl⟩

/-- Every bound the block states is a conservative one, as long as nothing overflows. -/
theorem continuity_conservative (hashContinuity : Continuity → String) (rows : List ContinuityRow) (window asOf : Int) :
    (buildContinuity hashContinuity rows window asOf = none ↔ window ≤ 0) ∧
    ∀ c, buildContinuity hashContinuity rows window asOf = some c → InRange rows →
    c.sessions = rows.map (fun r => (r.sessionID, r.hardEnd rows asOf)) ∧
    (∀ r ∈ rows, ∀ x, r.hardEnd rows asOf = some x →
      (∀ t, r.windowEndsAt = some t → x ≤ t) ∧ (0 < r.maxSessionSec → x ≤ r.started + r.maxSessionSec * second) ∧
      ∀ q, r.countsTime → r.timeQuota = some q → (x - asOf) * live rows r.entitlementID ≤ allowance r q * second) ∧
    (∀ id left, 0 ≤ left → (∀ r ∈ rows, r.entitlementID = id → ∃ q, r.countsTime ∧ r.timeQuota = some q ∧ allowance r q = left) →
      ((rows.filter (·.entitlementID = id)).map fun r => (r.hardEnd rows asOf).getD asOf - asOf).sum ≤ left * second) ∧
    (c.budgets.map (·.1)).Nodup ∧ (∀ r ∈ rows, r.dataQuota.isSome → r.entitlementID ∈ c.budgets.map (·.1)) ∧
    (∀ b ∈ c.budgets, ∃ r ∈ rows, ∃ q, r.entitlementID = b.1 ∧ r.dataQuota = some q ∧
      b.2 ≤ max 0 (q - r.dataConsumed - fullRates rows b.1)) ∧
    ∀ r ∈ rows, (∃ q, r.dataQuota = some q ∧ q - r.dataConsumed - fullRates rows r.entitlementID ≤ 0) ∨
      (∃ q, r.countsTime ∧ r.timeQuota = some q ∧ allowance r q = 0) → ∃ x, r.hardEnd rows asOf = some x ∧ x ≤ asOf := by
  refine ⟨by simp [buildContinuity], fun c built range => ?_⟩
  obtain ⟨sessions, eq⟩ := buildContinuity_some built
  have budgets : Budgeted rows (rows.reverse ++ []) (rows.foldl (addBudget rows) []) :=
    foldl_addBudget ⟨.nil, by simp, by simp⟩ fun _ mem => mem
  rw [eq]
  refine ⟨sessions, fun r mem x ends => ⟨(foldl_tighten.1 x ends).2, fun long => ?_, fun q counts quota => ?_⟩,
    fun id left pos limited => sum_hardEnd range pos limited, budgets.nodup, fun r mem => budgets.mem r (by simpa using mem),
    fun b hb => ?_, fun r mem gone => ?_⟩
  · have le := hardEnd_le ends (t := r.started + i64 (r.maxSessionSec * second)) (by simp [bounds, long])
    have wrapped := i64_le (n := r.maxSessionSec * second) (by unfold second; omega)
    omega
  · obtain ⟨x', ends', le⟩ := hardEnd_time asOf range mem counts quota
    obtain rfl := Option.some.inj (ends.symm.trans ends')
    rw [mul_comm]
    exact (mul_le_mul_of_nonneg_left le (live_pos mem).le).trans (shares_le (le_max_left _ _))
  · obtain ⟨r, mem, q, eq, quota, left⟩ := budgets.left b hb
    refine ⟨r, mem, q, eq, quota, ?_⟩
    rw [left, bytesLeft_eq range mem, eq]
    exact max_le_max_left 0 (i64_le (eq ▸ range.data r mem q quota))
  · rcases gone with ⟨q, quota, gone⟩ | ⟨q, counts, quota, gone⟩
    · have left : bytesLeft rows r q ≤ 0 := (bytesLeft_eq range mem).trans_le ((i64_le (range.data r mem q quota)).trans gone)
      exact hardEnd_some (by simp [bounds, quota, left])
    · obtain ⟨x, ends, le⟩ := hardEnd_time asOf range mem counts quota
      rw [gone, Int.zero_ediv, zero_mul] at le
      exact ⟨x, ends, by omega⟩

def spentRow : ContinuityRow := ⟨"s", "e", 0, 0, some 0, 0, false, none, 0, none, 0, 0⟩

/-- A budget that is gone is stated as zero, not as the negative rest. -/
theorem spent_budget_zero : (buildContinuity (fun _ => "") [spentRow] second 0).map (·.budgets) = some [("e", 0)] ∧
    spentRow.dataQuota = some 0 ∧ 0 - spentRow.dataConsumed - fullRates [spentRow] "e" < 0 := by decide

end StayConnect.Enforce
