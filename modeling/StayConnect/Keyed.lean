import Mathlib.Algebra.Order.BigOperators.Group.List
import Mathlib.Algebra.BigOperators.Group.List.Basic
import Mathlib.Data.List.Perm.Subperm
import Mathlib.Algebra.Ring.Int.Defs
import Mathlib.Algebra.Ring.Nat
import Mathlib.Tactic.Lemma

/-!
# Tables as lists of rows

`upsert p new f rows` is `INSERT .. ON CONFLICT DO UPDATE`: the first row with `p` becomes its image under
`f`, and without one `new` is appended. A total over the rows then changes by what the one row touched
changes by (`total_upsert`), and a row looked up under another key is the row it was (`lookup_upsert_ne`).
Two tables joined on their keys have one total, from either side (`total_join`).
-/

namespace StayConnect.Keyed

variable {α β : Type*}

/-- The first row with `p` is replaced by its image; without one, `new` is appended. -/
def upsert (p : α → Bool) (new : α) (f : α → α) : List α → List α
  | [] => [new]
  | x :: xs => if p x then f x :: xs else x :: upsert p new f xs

/-- The total of a measure over the rows. -/
def total (g : α → Nat) (rows : List α) : Nat := (rows.map g).sum

section
variable {p : α → Bool} {new : α} {f : α → α} {rows : List α} {g : α → Nat} {x : α} {rows' : List α} {q : α → Bool}

@[simp] lemma total_nil : total g [] = 0 := rfl

@[simp] lemma total_cons : total g (x :: rows) = g x + total g rows := by
  unfold total
  rw [List.map_cons, List.sum_cons]

@[simp] lemma total_append : total g (rows ++ rows') = total g rows + total g rows' := by
  unfold total
  rw [List.map_append, List.sum_append]

lemma total_filter_add (q : α → Bool) : total g (rows.filter q) + total g (rows.filter fun x => !q x) = total g rows := by
  induction rows with
  | nil => rfl
  | cons x xs ih => cases h : q x <;> simp [h] <;> omega

lemma total_congr {g'} (h : ∀ x ∈ rows, g x = g' x) : total g rows = total g' rows := by
  unfold total
  rw [List.map_congr_left h]

lemma total_le_total {g'} (h : ∀ x ∈ rows, g x ≤ g' x) : total g rows ≤ total g' rows := by
  induction rows with
  | nil => exact le_refl _
  | cons x xs ih =>
    rw [total_cons, total_cons]
    exact Nat.add_le_add (h x List.mem_cons_self) (ih fun y hy => h y (List.mem_cons_of_mem _ hy))

lemma total_map {γ : Type*} {h : α → γ} {g : γ → Nat} : total g (rows.map h) = total (fun x => g (h x)) rows := by
  unfold total
  rw [List.map_map]
  rfl

lemma total_add {g'} : total (fun x => g x + g' x) rows = total g rows + total g' rows := by
  induction rows with
  | nil => rfl
  | cons x xs ih =>
    simp only [total_cons, ih]
    omega

lemma total_eq_zero (h : ∀ x ∈ rows, g x = 0) : total g rows = 0 := by
  induction rows with
  | nil => rfl
  | cons x xs ih =>
    rw [total_cons, h x List.mem_cons_self, ih fun y hy => h y (List.mem_cons_of_mem _ hy)]

lemma le_total (h : x ∈ rows) : g x ≤ total g rows := by
  induction rows with
  | nil => cases h
  | cons y ys ih =>
    rw [total_cons]
    rcases List.mem_cons.mp h with rfl | h
    · omega
    · have := ih h
      omega

lemma total_perm (h : rows.Perm rows') : total g rows = total g rows' :=
  (h.map g).sum_eq

lemma total_sublist (h : rows.Sublist rows') : total g rows ≤ total g rows' := by
  induction h with
  | slnil => exact le_refl _
  | cons x _ ih =>
    rw [total_cons]
    omega
  | cons_cons x _ ih =>
    rw [total_cons, total_cons]
    omega

lemma total_upsert {d} (old : ∀ x ∈ rows, p x → g (f x) = g x + d) (fresh : g new = d) :
    total g (upsert p new f rows) = total g rows + d := by
  induction rows with
  | nil => simp [upsert, fresh]
  | cons x xs ih =>
    unfold upsert
    split
    case isTrue h =>
      rw [total_cons, total_cons, old x List.mem_cons_self h]
      omega
    case isFalse =>
      rw [total_cons, total_cons, ih fun y hy => old y (List.mem_cons_of_mem _ hy)]
      omega

lemma mem_upsert_of_mem (mem : x ∈ rows) : x ∈ upsert p new f rows ∨ (p x ∧ f x ∈ upsert p new f rows) := by
  induction rows with
  | nil => cases mem
  | cons y ys ih =>
    unfold upsert
    by_cases hy : p y
    · rw [if_pos hy]
      rcases List.mem_cons.mp mem with rfl | later
      · exact .inr ⟨hy, List.mem_cons_self⟩
      · exact .inl (List.mem_cons_of_mem _ later)
    · rw [if_neg hy]
      rcases List.mem_cons.mp mem with rfl | later
      · exact .inl List.mem_cons_self
      · exact (ih later).imp (List.mem_cons_of_mem _) fun h => ⟨h.1, List.mem_cons_of_mem _ h.2⟩

lemma exists_upsert : new ∈ upsert p new f rows ∨ ∃ x ∈ rows, p x ∧ f x ∈ upsert p new f rows := by
  induction rows with
  | nil => exact .inl List.mem_cons_self
  | cons y ys ih =>
    unfold upsert
    by_cases hy : p y
    · rw [if_pos hy]
      exact .inr ⟨y, List.mem_cons_self, hy, List.mem_cons_self⟩
    rw [if_neg hy]
    rcases ih with h | ⟨x, hx, hp, h⟩
    · exact .inl (List.mem_cons_of_mem _ h)
    · exact .inr ⟨x, List.mem_cons_of_mem _ hx, hp, List.mem_cons_of_mem _ h⟩

lemma filter_upsert (hp : ∀ x, p x → q x) (hf : ∀ x, p x → q (f x)) (hnew : q new) :
    (upsert p new f rows).filter q = upsert p new f (rows.filter q) := by
  induction rows with
  | nil => simp [upsert, hnew]
  | cons y ys ih =>
    by_cases hy : p y
    · simp [upsert, hy, hp y hy, hf y hy]
    · by_cases hq : q y
      · simp [upsert, hy, hq, ih]
      · simp [upsert, hy, hq, ih]

lemma filter_upsert_drop (hp : ∀ x, p x → q x = false) (hf : ∀ x, p x → q (f x) = false)
    (hnew : q new = false) : (upsert p new f rows).filter q = rows.filter q := by
  induction rows with
  | nil => simp [upsert, hnew]
  | cons y ys ih =>
    by_cases hy : p y
    · simp [upsert, hy, hp y hy, hf y hy]
    · simp [upsert, hy, List.filter_cons, ih]

lemma total_filter : total g (rows.filter q) = total (fun x => if q x then g x else 0) rows := by
  induction rows with
  | nil => rfl
  | cons x xs ih => cases h : q x <;> simp [h, ih]

lemma total_flatMap {γ : Type*} {h : γ → Nat} {f : α → List γ} : total h (rows.flatMap f) = total (fun x => total h (f x)) rows := by
  induction rows with
  | nil => rfl
  | cons x xs ih => rw [List.flatMap_cons, total_append, total_cons, ih]

/-- Sums over two tables may be taken in either order. -/
lemma total_comm {γ : Type*} {h : α → γ → Nat} {cols} :
    total (fun x => total (h x) cols) rows = total (fun y => total (fun x => h x y) rows) cols := by
  induction rows with
  | nil => exact (total_eq_zero fun _ _ => rfl).symm
  | cons x xs ih =>
    simp only [total_cons, ih]
    exact total_add.symm

lemma total_point {m} (mem : x ∈ rows) (nodup : rows.Nodup)
    (same : ∀ y ∈ rows, y ≠ x → m y = g y) : total m rows + g x = total g rows + m x := by
  induction rows with
  | nil => cases mem
  | cons y ys ih =>
    obtain ⟨fresh, nodup⟩ := List.nodup_cons.mp nodup
    rw [total_cons, total_cons]
    by_cases hit : y = x
    · subst hit
      have rest : total m ys = total g ys :=
        total_congr fun z hz => same z (List.mem_cons_of_mem _ hz) fun e => fresh (e ▸ hz)
      omega
    · have next := ih ((List.mem_cons.mp mem).resolve_left (Ne.symm hit)) nodup
        fun z hz => same z (List.mem_cons_of_mem _ hz)
      have head := same y List.mem_cons_self hit
      omega

lemma find?_unique (mem : x ∈ rows) (hx : p x) (unique : ∀ y ∈ rows, p y → y = x) : rows.find? p = some x := by
  cases found : rows.find? p with
  | none => exact absurd hx (List.find?_eq_none.mp found x mem)
  | some y => rw [unique y (List.mem_of_find?_eq_some found) (List.find?_some found)]

lemma mem_upsert (h : x ∈ upsert p new f rows) : x ∈ rows ∨ x = new ∨ ∃ y ∈ rows, p y ∧ x = f y := by
  induction rows with
  | nil => exact .inr (.inl (List.mem_singleton.mp h))
  | cons y ys ih =>
    unfold upsert at h
    split at h
    case isTrue hy =>
      rcases List.mem_cons.mp h with rfl | h
      · exact .inr (.inr ⟨y, List.mem_cons_self, hy, rfl⟩)
      · exact .inl (List.mem_cons_of_mem _ h)
    case isFalse =>
      rcases List.mem_cons.mp h with rfl | h
      · exact .inl List.mem_cons_self
      rcases ih h with h | h | ⟨z, hz, h⟩
      · exact .inl (List.mem_cons_of_mem _ h)
      · exact .inr (.inl h)
      · exact .inr (.inr ⟨z, List.mem_cons_of_mem _ hz, h⟩)

end

section
variable [DecidableEq β] {key : α → β} {k : β} {new : α} {f : α → α} {rows : List α}

def lookup (key : α → β) (k : β) (rows : List α) : Option α := rows.find? fun x => key x = k

lemma lookup_mem {x} (h : lookup key k rows = some x) : x ∈ rows ∧ key x = k := by
  have found := List.find?_some h
  exact ⟨List.mem_of_find?_eq_some h, of_decide_eq_true found⟩

lemma lookup_isSome (h : k ∈ rows.map key) : ∃ x, lookup key k rows = some x := by
  obtain ⟨x, hx, rfl⟩ := List.mem_map.mp h
  exact Option.isSome_iff_exists.mp (List.find?_isSome.mpr ⟨x, hx, decide_eq_true rfl⟩)

lemma lookup_append {rows'} : lookup key k (rows ++ rows') = (lookup key k rows).or (lookup key k rows') := by
  unfold lookup
  rw [List.find?_append]

@[simp] lemma lookup_singleton {x} : lookup key k [x] = if key x = k then some x else none := by
  unfold lookup
  rw [List.find?_singleton]
  by_cases h : key x = k <;> simp [h]

/-- `UPDATE .. WHERE key = k'`, looked up. -/
lemma lookup_update {k'} (hf : ∀ x, key (f x) = key x) :
    lookup key k (rows.map fun x => if key x = k' then f x else x) = (lookup key k rows).map fun x => if k = k' then f x else x := by
  induction rows with
  | nil => rfl
  | cons x xs ih =>
    by_cases h : key x = k
    · by_cases h' : k = k'
      · simp [lookup, h, h', hf]
      · simp [lookup, h, h']
    · by_cases h' : key x = k'
      · simpa [lookup, h, h', hf, show ¬ k' = k from fun e => h (h'.trans e)] using ih
      · simpa [lookup, h, h'] using ih

omit [DecidableEq β] in
lemma keys_map (hf : ∀ x, key (f x) = key x) : (rows.map f).map key = rows.map key := by
  rw [List.map_map]
  exact List.map_congr_left fun x _ => hf x

lemma lookup_map (hf : ∀ x, key (f x) = key x) : lookup key k (rows.map f) = (lookup key k rows).map f := by
  unfold lookup
  rw [List.find?_map]
  congr 2
  funext x
  simp only [Function.comp_apply, hf]

lemma lookup_upsert (hf : ∀ x, key x = k → key (f x) = k) (hnew : key new = k) :
    lookup key k (upsert (fun x => key x = k) new f rows) = some ((lookup key k rows).elim new f) := by
  induction rows with
  | nil => simp [lookup, upsert, hnew]
  | cons x xs ih =>
    by_cases h : key x = k
    · simp [lookup, upsert, h, hf x h]
    · simpa [lookup, upsert, h] using ih

lemma lookup_upsert_ne {k'} (ne : k' ≠ k) (hf : ∀ x, key x = k → key (f x) = k) (hnew : key new = k) :
    lookup key k' (upsert (fun x => key x = k) new f rows) = lookup key k' rows := by
  induction rows with
  | nil => simp [lookup, upsert, hnew, ne.symm]
  | cons x xs ih =>
    by_cases h : key x = k
    · simp [lookup, upsert, h, hf x h, ne.symm]
    · by_cases h' : key x = k'
      · simp [lookup, upsert, h', ne]
      · simpa [lookup, upsert, h, h'] using ih

lemma keys_upsert (hf : ∀ x, key x = k → key (f x) = k) (hnew : key new = k) :
    ((upsert (fun x => key x = k) new f rows).map key) = if k ∈ rows.map key then rows.map key else rows.map key ++ [k] := by
  induction rows with
  | nil => simp [upsert, hnew]
  | cons x xs ih =>
    by_cases h : key x = k
    · simp [upsert, h, hf x h]
    · simp only [upsert, h, decide_false, Bool.false_eq_true, ↓reduceIte, List.map_cons, ih,
        List.mem_cons, Ne.symm h, false_or]
      split <;> rfl

lemma nodup_upsert (hf : ∀ x, key x = k → key (f x) = k) (hnew : key new = k) (nodup : (rows.map key).Nodup) :
    ((upsert (fun x => key x = k) new f rows).map key).Nodup := by
  rw [keys_upsert hf hnew]
  split
  case isTrue => exact nodup
  case isFalse h =>
    refine List.nodup_append.mpr ⟨nodup, List.pairwise_singleton _ k, ?_⟩
    intro a ha b hb same
    rw [same, List.mem_singleton.mp hb] at ha
    exact h ha

lemma lookup_filter {q} (h : ∀ x ∈ rows, key x = k → q x) : lookup key k (rows.filter q) = lookup key k rows := by
  induction rows with
  | nil => rfl
  | cons x xs ih =>
    have rest := ih fun y hy => h y (List.mem_cons_of_mem _ hy)
    by_cases hk : key x = k
    · have hq := h x List.mem_cons_self hk
      simp [lookup, hq, hk]
    · cases hq : q x <;> simpa [lookup, hq, hk] using rest

lemma elim_lookup {h} (nodup : (rows.map key).Nodup) :
    (lookup key k rows).elim 0 h = total (fun x => if key x = k then h x else 0) rows := by
  induction rows with
  | nil => rfl
  | cons x xs ih =>
    obtain ⟨fresh, nodup⟩ := List.nodup_cons.mp nodup
    by_cases hk : key x = k
    · have rest : total (fun x => if key x = k then h x else 0) xs = 0 := by
        refine total_eq_zero fun y hy => if_neg fun e => fresh ?_
        exact List.mem_map.mpr ⟨y, hy, e.trans hk.symm⟩
      rw [total_cons, rest, if_pos hk]
      simp [lookup, hk]
    · rw [total_cons, if_neg hk, Nat.zero_add, ← ih nodup]
      simp [lookup, hk]

/-- A join on keys has one total, from either side. -/
lemma total_join {γ : Type*} {key' : γ → β} {cols} {h : α → γ → Nat} (nodup : (rows.map key).Nodup) (nodup' : (cols.map key').Nodup) :
    total (fun x => (lookup key' (key x) cols).elim 0 (h x)) rows =
      total (fun y => (lookup key (key' y) rows).elim 0 fun x => h x y) cols := by
  have left : ∀ x ∈ rows, (lookup key' (key x) cols).elim 0 (h x) =
      total (fun y => if key' y = key x then h x y else 0) cols := fun x _ => elim_lookup nodup'
  have right : ∀ y ∈ cols, ((lookup key (key' y) rows).elim 0 fun x => h x y) =
      total (fun x => if key' y = key x then h x y else 0) rows := by
    intro y _
    simp only [elim_lookup nodup, eq_comm]
  rw [total_congr left, total_congr right, total_comm]

end

end StayConnect.Keyed
