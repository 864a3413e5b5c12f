import Mathlib.Data.List.Basic
import Mathlib.Logic.Relation
import Mathlib.Tactic.Lemma

/-!
# Transactions

A transaction is a `StateT σ (Except ε) α`: it either commits with a value and a new state, or is refused
and leaves the state it started from. `Commits m s a s'` says that `m` commits; the `simp` set below turns
a committed composite into its committed parts, so that a transaction is read by inversion, statement by
statement. `Keeps R m` says that every commit of `m` changes the state only along the preorder `R`.
-/

namespace StayConnect.Tx

variable {σ ε α β : Type}

/-- Started in `s`, the transaction commits with `a` in `s'`. -/
def Commits (m : StateT σ (Except ε) α) (s : σ) (a : α) (s' : σ) : Prop := m.run s = .ok (a, s')

/-- The state after the transaction: a refused one is rolled back. -/
def after (m : StateT σ (Except ε) α) (s : σ) : σ :=
  match m.run s with
  | .ok (_, s') => s'
  | .error _ => s

/-- Every commit changes the state along `R`. -/
def Keeps (R : σ → σ → Prop) (m : StateT σ (Except ε) α) : Prop := ∀ s a s', Commits m s a s' → R s s'

/-- A composite that succeeds has parts that succeed. -/
lemma ok_bind_iff {x} {f : α → Except ε β} {b} : (x >>= f) = .ok b ↔ ∃ a, x = .ok a ∧ f a = .ok b := by
  cases x with
  | error e =>
    constructor
    · intro h
      cases h
    · rintro ⟨a, ⟨⟩, _⟩
  | ok a =>
    constructor
    · exact fun h => ⟨a, rfl, h⟩
    · rintro ⟨_, ⟨⟩, h⟩
      exact h

/-- A gate. -/
def refuse (b : Bool) (e : ε) : Except ε Unit := if b then .error e else .ok ()

/-- A row that must be there. -/
def need (e : ε) (o : Option α) : Except ε α := o.elim (.error e) .ok

/-- A gate that names what it found. -/
def refuseAny (o : Option α) (f : α → ε) : Except ε Unit := o.elim (.ok ()) fun a => .error (f a)

@[simp] lemma refuse_ok {b : Bool} {e : ε} {u : Unit} : refuse b e = .ok u ↔ b = false := by
  cases b <;> simp [refuse]

@[simp] lemma refuseAny_ok {o} {f : α → ε} {u} : refuseAny o f = .ok u ↔ o = none := by
  cases o <;> simp [refuseAny]

@[simp] lemma need_ok {e : ε} {o : Option α} {a : α} : need e o = .ok a ↔ o = some a := by
  cases o <;> simp [need]

@[simp] lemma mapError_ok {ε' : Type} {x : Except ε α} {f : ε → ε'} {a : α} : x.mapError f = .ok a ↔ x = .ok a := by
  cases x <;> simp [Except.mapError]

section
variable {m : StateT σ (Except ε) α} {s s' : σ} {a : α}

@[simp] lemma commits_pure {b} : Commits (pure b : StateT σ (Except ε) α) s a s' ↔ a = b ∧ s' = s := by
  constructor
  · intro h
    cases h
    exact ⟨rfl, rfl⟩
  · rintro ⟨rfl, rfl⟩
    rfl

@[simp] lemma commits_bind {f : α → StateT σ (Except ε) β} {b} :
    Commits (m >>= f) s b s' ↔ ∃ a s₁, Commits m s a s₁ ∧ Commits (f a) s₁ b s' := by
  unfold Commits
  rw [StateT.run_bind]
  constructor
  · intro h
    cases e : m.run s with
    | error err => rw [e] at h; cases h
    | ok p => rw [e] at h; exact ⟨p.1, p.2, rfl, h⟩
  · rintro ⟨a, s₁, hm, hf⟩
    rw [hm]
    exact hf

@[simp] lemma commits_throw {e} : ¬ Commits (throw e : StateT σ (Except ε) α) s a s' := by
  intro h
  cases h

@[simp] lemma commits_modify {f u} : Commits (modify f : StateT σ (Except ε) Unit) s u s' ↔ s' = f s := by
  constructor
  · intro h
    cases h
    rfl
  · rintro rfl
    rfl

lemma commits_get_bind {f : σ → StateT σ (Except ε) β} {b} : Commits (get >>= f) s b s' ↔ Commits (f s) s b s' := Iff.rfl

lemma commits_modify_bind {g : σ → σ} {f : PUnit → StateT σ (Except ε) β} {b} :
    Commits (modify g >>= f) s b s' ↔ Commits (f ⟨⟩) (g s) b s' := Iff.rfl

@[simp] lemma commits_ite {c} [Decidable c] {m'} :
    Commits (if c then m else m') s a s' ↔ (c ∧ Commits m s a s') ∨ (¬ c ∧ Commits m' s a s') := by
  by_cases h : c <;> simp [h]

lemma after_cases (m : StateT σ (Except ε) α) (s : σ) : after m s = s ∨ ∃ a, Commits m s a (after m s) := by
  unfold after
  cases e : m.run s with
  | error err => exact .inl rfl
  | ok p => exact .inr ⟨p.1, e⟩

end

namespace Keeps

variable {R : σ → σ → Prop} {m : StateT σ (Except ε) α}

lemma after (refl : ∀ s, R s s) (keeps : Keeps R m) (s : σ) : R s (after m s) := by
  rcases after_cases m s with h | ⟨a, h⟩
  · rw [h]
    exact refl s
  · exact keeps s a _ h

lemma pure (refl : ∀ s, R s s) {a} : Keeps R (pure a : StateT σ (Except ε) α) := by
  intro s b s' h
  rw [(commits_pure.mp h).2]
  exact refl s

lemma bind (trans : ∀ {s t u}, R s t → R t u → R s u) {f : α → StateT σ (Except ε) β} (keeps : Keeps R m)
    (rest : ∀ a, Keeps R (f a)) : Keeps R (m >>= f) := by
  intro s b s' h
  obtain ⟨a, s₁, h₁, h₂⟩ := commits_bind.mp h
  exact trans (keeps s a s₁ h₁) (rest a s₁ b s' h₂)

lemma forM (refl : ∀ s, R s s) (trans : ∀ {s t u}, R s t → R t u → R s u)
    {xs : List α} {f : α → StateT σ (Except ε) PUnit} (body : ∀ x ∈ xs, Keeps R (f x)) : Keeps R (xs.forM f) := by
  induction xs with
  | nil =>
    intro s a s' h
    rw [(commits_pure.mp h).2]
    exact refl s
  | cons x xs ih =>
    have rest : Keeps R (xs.forM f) := ih fun y hy => body y (List.mem_cons_of_mem _ hy)
    exact bind (R := R) (f := fun _ => xs.forM f) trans (body x List.mem_cons_self) fun _ => rest

end Keeps

end StayConnect.Tx
