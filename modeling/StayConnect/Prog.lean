import Mathlib.Data.List.Basic
import Mathlib.Logic.Relation
import Mathlib.Tactic.Lemma

/-!
# State programs and the moves they make

A program is a `StateM σ α`. `Wp R m Q s` says that `m` started in `s` changes the state only by moves
of `R` and ends with `Q`; what a move can do is thus said once, and an invariant of the moves is an
invariant of every program. The rules follow the shape of the program: `bind` hands the state reached,
with the moves that led to it, to the rest. `Steps R m` is the special case without a postcondition,
from every state.
-/

namespace StayConnect.Prog

open Relation

variable {σ α β : Type} {R R' : σ → σ → Prop} {s t : σ}

/-- From `s`, the program makes only moves of `R` and ends with `Q`. -/
def Wp (R : σ → σ → Prop) (m : StateM σ α) (Q : α → σ → Prop) (s : σ) : Prop :=
  ReflTransGen R s (m.run s).2 ∧ Q (m.run s).1 (m.run s).2

/-- From every state, the program makes only moves of `R`. -/
def Steps (R : σ → σ → Prop) (m : StateM σ α) : Prop := ∀ s, Wp R m (fun _ _ => True) s

/-- Any change at all: for programs of which only the end matters. -/
def Any : σ → σ → Prop := fun _ _ => True

lemma keep {S : σ → Prop} (stable : ∀ {s t}, R s t → S s → S t) (moves : ReflTransGen R s t) (h : S s) : S t := by
  induction moves with
  | refl => exact h
  | tail _ move ih => exact stable move ih

/-- Moves of a preorder compose to one. -/
lemma closed (refl : ∀ s, R s s) (trans : ∀ {s t u}, R s t → R t u → R s u) (moves : ReflTransGen R s t) : R s t := by
  induction moves with
  | refl => exact refl s
  | tail _ move ih => exact trans ih move

lemma appended_trans {ε : Type} {P : ε → Prop} {a b c : List ε} (h : ∃ new, b = new ++ a ∧ ∀ e ∈ new, P e)
    (h' : ∃ new, c = new ++ b ∧ ∀ e ∈ new, P e) : ∃ new, c = new ++ a ∧ ∀ e ∈ new, P e := by
  obtain ⟨new, rfl, all⟩ := h
  obtain ⟨new', rfl, all'⟩ := h'
  refine ⟨new' ++ new, (List.append_assoc ..).symm, fun e he => ?_⟩
  exact (List.mem_append.mp he).elim (all' e) (all e)

/-- A record that every move adds to. -/
lemma grown {ε : Type} {f : σ → List ε} {P : ε → Prop}
    (step : ∀ {s t}, R s t → ∃ new, f t = new ++ f s ∧ ∀ e ∈ new, P e) (moves : ReflTransGen R s t) :
    ∃ new, f t = new ++ f s ∧ ∀ e ∈ new, P e :=
  keep (S := fun t => ∃ new, f t = new ++ f s ∧ ∀ e ∈ new, P e) (fun move h => appended_trans h (step move))
    moves ⟨[], rfl, by simp⟩

namespace Wp

section
variable {m : StateM σ α} {f : α → StateM σ β} {Q Q' : α → σ → Prop}

lemma change {g Q} (move : R s (g s)) (h : Q () (g s)) : Wp R (modify g) Q s := ⟨.single move, h⟩

lemma read {f : σ → StateM σ β} {Q : β → σ → Prop} (h : Wp R (f s) Q s) : Wp R (get >>= f) Q s := h

lemma pure {a} (h : Q a s) : Wp R (Pure.pure a) Q s := ⟨.refl, h⟩

lemma bind {M Q} (hm : Wp R m M s) (hf : ∀ a t, ReflTransGen R s t → M a t → Wp R (f a) Q t) : Wp R (m >>= f) Q s := by
  obtain ⟨moves, post⟩ := hm
  obtain ⟨moves', post'⟩ := hf _ _ moves post
  exact ⟨moves.trans moves', post'⟩

lemma conseq (h : Wp R m Q s) (imp : ∀ a t, ReflTransGen R s t → Q a t → Q' a t) : Wp R m Q' s :=
  ⟨h.1, imp _ _ h.1 h.2⟩

lemma mono (le : ∀ {s t}, R s t → R' s t) (h : Wp R m Q s) : Wp R' m Q s :=
  ⟨keep (S := ReflTransGen R' s) (fun move moves => moves.tail (le move)) h.1 .refl, h.2⟩

/-- Two accounts of one program. -/
lemma both (h : Wp R m Q s) (h' : Wp R' m Q' s) : Wp R m (fun a t => Q a t ∧ Q' a t) s := ⟨h.1, h.2, h'.2⟩

lemma set {g Q} (h : Q () (g s)) : Wp Any (modify g) Q s := change trivial h

lemma any (h : Wp R m Q s) : Wp Any m Q s := h.mono fun _ => trivial

lemma discard {Q} (h : Wp R m (fun _ => Q) s) : Wp R (m >>= fun _ => Pure.pure ()) (fun _ => Q) s := h

end

/-- A loop: `I` speaks of the elements still to come. -/
lemma forM (I : List α → σ → Prop) {f l s} (body : ∀ a rest t, I (a :: rest) t → Wp R (f a) (fun _ => I rest) t) (h : I l s) :
    Wp R (l.forM f) (fun _ => I []) s := by
  induction l generalizing s with
  | nil => exact .pure h
  | cons a rest ih =>
    show Wp R (f a >>= fun _ => rest.forM f) _ s
    exact .bind (body a rest s h) fun _ t _ ht => ih ht

lemma mapM (I : List α → σ → Prop) (T : α → β → Prop) {f l s}
    (body : ∀ a rest t, I (a :: rest) t → Wp R (f a) (fun b u => T a b ∧ I rest u) t) (h : I l s) :
    Wp R (l.mapM f) (fun bs u => List.Forall₂ T l bs ∧ I [] u) s := by
  induction l generalizing s with
  | nil => exact .pure ⟨.nil, h⟩
  | cons a rest ih =>
    rw [List.mapM_cons]
    refine .bind (body a rest s h) fun b t _ ht => .bind (ih ht.2) fun bs u _ hu => .pure ?_
    exact ⟨.cons ht.1 hu.1, hu.2⟩

/-- A loop that collects results: `I` speaks of the elements still to come and the results so far. -/
lemma collect (I : List α → List β → σ → Prop) {f l s}
    (body : ∀ a rest bs t, I (a :: rest) bs t → Wp R (f a) (fun b u => I rest (bs ++ [b]) u) t) (h : I l [] s) :
    Wp R (l.mapM f) (I []) s := by
  have loop : ∀ (l : List α) (bs : List β) (s : σ), I l bs s → Wp R (l.mapM f) (fun bs' u => I [] (bs ++ bs') u) s := by
    intro l
    induction l with
    | nil => exact fun bs s h => .pure (by simpa using h)
    | cons a rest ih =>
      intro bs s h
      rw [List.mapM_cons]
      refine .bind (body a rest bs s h) fun b t _ ht => .bind (ih _ t ht) fun bs' u _ hu => .pure ?_
      simpa using hu
  exact loop l [] s h

lemma exists_of_forall₂ {T : α → β → Prop} {l bs} (h : List.Forall₂ T l bs) : ∀ b ∈ bs, ∃ a ∈ l, T a b := by
  induction h with
  | nil => simp
  | cons hb _ ih =>
    intro b hmem
    rcases List.mem_cons.mp hmem with rfl | hmem
    · exact ⟨_, by simp, hb⟩
    · obtain ⟨a, ha, hab⟩ := ih b hmem
      exact ⟨a, by simp [ha], hab⟩

lemma foldlM (I : List α → β → σ → Prop) {f l b s} (body : ∀ b a rest t, I (a :: rest) b t → Wp R (f b a) (I rest) t) (h : I l b s) :
    Wp R (l.foldlM f b) (I []) s := by
  induction l generalizing b s with
  | nil => exact .pure h
  | cons a rest ih =>
    rw [List.foldlM_cons]
    exact .bind (body b a rest s h) fun _ t _ ht => ih ht

end Wp

namespace Steps

section
variable {m : StateM σ α} {f : α → StateM σ β}

lemma wp (h : Steps R m) : Wp R m (fun _ _ => True) s := h s

/-- Over a preorder, the program as a whole is one move. -/
lemma run (refl : ∀ s, R s s) (trans : ∀ {s t u}, R s t → R t u → R s u) (h : Steps R m) (s : σ) :
    R s (m.run s).2 := closed refl trans (h s).1

lemma change {g} (move : ∀ s, R s (g s)) : Steps R (modify g) :=
  fun s => .change (move s) trivial

lemma read {f : σ → StateM σ β} (h : ∀ s, Steps R (f s)) : Steps R (get >>= f) := fun s => h s s

lemma pure {a : α} : Steps R (Pure.pure a) := fun _ => .pure trivial

lemma bind (hm : Steps R m) (hf : ∀ a, Steps R (f a)) : Steps R (m >>= f) :=
  fun s => (hm s).bind fun a t _ _ => hf a t

lemma mono (le : ∀ {s t}, R s t → R' s t) (h : Steps R m) : Steps R' m := fun s => (h s).mono le

end

lemma forM {f : α → StateM σ PUnit} {l : List α} (body : ∀ a, Steps R (f a)) : Steps R (l.forM f) :=
  fun _ => .forM (fun _ _ => True) (fun a _ t _ => body a t) trivial

lemma mapM {f : α → StateM σ β} {l : List α} (body : ∀ a, Steps R (f a)) : Steps R (l.mapM f) :=
  fun _ => (Wp.mapM (fun _ _ => True) (fun _ _ => True)
    (fun a _ t _ => (body a t).conseq fun _ _ _ _ => ⟨trivial, trivial⟩) trivial).conseq fun _ _ _ _ => trivial

end Steps

end StayConnect.Prog
