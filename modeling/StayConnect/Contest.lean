import Mathlib.Data.List.Induction
import Mathlib.Logic.Function.Basic
import Mathlib.Tactic.Lemma

/-!
# Contested claims

Claims on places are taken in one after another: the first claim of a place holds it, a later one of the
same owner replaces it, and the first one of another owner makes the place contested for good, so that
nobody holds it. What the table ends with is read off the claims as a set, whatever their order.
-/

namespace StayConnect.Contest

variable {κ ν ι : Type} [DecidableEq κ] [DecidableEq ι] {owner : ν → ι} {claims : List (κ × ν)} {k : κ} {v : ν}

/-- Who holds a place, and which places are contested. -/
structure Board (κ ν : Type) where
  holder : κ → Option ν := fun _ => none
  contested : κ → Bool := fun _ => false

def Board.claim (owner : ν → ι) (b : Board κ ν) (c : κ × ν) : Board κ ν :=
  if b.contested c.1 then b
  else if (b.holder c.1).any fun v => owner v ≠ owner c.2 then
    ⟨Function.update b.holder c.1 none, Function.update b.contested c.1 true⟩
  else { b with holder := Function.update b.holder c.1 (some c.2) }

def board (owner : ν → ι) (claims : List (κ × ν)) : Board κ ν := claims.foldl (Board.claim owner) {}

def Disputed (owner : ν → ι) (claims : List (κ × ν)) (k : κ) : Prop :=
  ∃ u v, (k, u) ∈ claims ∧ (k, v) ∈ claims ∧ owner u ≠ owner v

/-- What the table says of a place whose claims are `claims`. -/
structure Settled (owner : ν → ι) (claims : List (κ × ν)) (b : Board κ ν) (k : κ) : Prop where
  contested : b.contested k = true ↔ Disputed owner claims k
  nobody : Disputed owner claims k → b.holder k = none
  holder : ∀ v, b.holder k = some v → (k, v) ∈ claims
  claimed : ¬ Disputed owner claims k → ∀ v, (k, v) ∈ claims → (b.holder k).isSome

lemma Disputed.mono {claims'} (h : Disputed owner claims k) (sub : claims ⊆ claims') : Disputed owner claims' k := by
  obtain ⟨u, v, hu, hv, hne⟩ := h
  exact ⟨u, v, sub hu, sub hv, hne⟩

lemma mem_elsewhere {c} (hne : k ≠ c.1) : (k, v) ∈ claims ++ [c] ↔ (k, v) ∈ claims := by
  simp only [List.mem_append, List.mem_singleton, or_iff_left_iff_imp]
  rintro rfl
  exact absurd rfl hne

lemma disputed_elsewhere {c} (hne : k ≠ c.1) : Disputed owner (claims ++ [c]) k ↔ Disputed owner claims k := by
  simp only [Disputed, mem_elsewhere hne]

lemma Settled.elsewhere {b c} (h : Settled owner claims b k) (hne : k ≠ c.1) : Settled owner (claims ++ [c]) (b.claim owner c) k := by
  have mem : ∀ u, (k, u) ∈ claims ++ [c] ↔ (k, u) ∈ claims := fun u => mem_elsewhere hne
  have disputed : Disputed owner (claims ++ [c]) k ↔ Disputed owner claims k := disputed_elsewhere hne
  have same : (b.claim owner c).holder k = b.holder k ∧ (b.claim owner c).contested k = b.contested k := by
    unfold Board.claim
    split
    · exact ⟨rfl, rfl⟩
    · split <;> simp [Function.update_of_ne hne]
  constructor
  · rw [same.2, disputed]; exact h.contested
  · rw [same.1, disputed]; exact h.nobody
  · rw [same.1]; exact fun v hv => (mem v).mpr (h.holder v hv)
  · rw [same.1, disputed]; exact fun hd v hv => h.claimed hd v ((mem v).mp hv)

lemma Settled.here {b} (h : Settled owner claims b k) (v : ν) : Settled owner (claims ++ [(k, v)]) (b.claim owner (k, v)) k := by
  have sub : claims ⊆ claims ++ [(k, v)] := List.subset_append_left _ _
  unfold Board.claim
  split
  next hc =>
    have hd := h.contested.mp hc
    exact ⟨⟨fun _ => hd.mono sub, fun _ => hc⟩, fun _ => h.nobody hd, fun u hu => sub (h.holder u hu),
      fun hn => absurd (hd.mono sub) hn⟩
  next hc =>
    have undisputed : ¬ Disputed owner claims k := fun hd => hc (h.contested.mpr hd)
    split
    · rename_i hother
      obtain ⟨u, hu, hne⟩ : ∃ u, b.holder k = some u ∧ owner u ≠ owner v := by
        simpa [Option.any_eq_true] using hother
      have hd : Disputed owner (claims ++ [(k, v)]) k := ⟨u, v, sub (h.holder u hu), by simp, hne⟩
      exact ⟨by simp [hd], by simp, by simp, fun hn => absurd hd hn⟩
    rename_i hsame
    -- Every earlier claim is the holder's owner's, and the newcomer has that owner too.
    have agree : ∀ u, (k, u) ∈ claims → owner u = owner v := by
      intro u hu
      obtain ⟨x, hx⟩ := Option.isSome_iff_exists.mp (h.claimed undisputed u hu)
      have hxv : owner x = owner v := by
        by_contra hne
        simp [hx, hne] at hsame
      by_contra hne
      exact undisputed ⟨u, x, hu, h.holder x hx, fun he => hne (he.trans hxv)⟩
    have still : ¬ Disputed owner (claims ++ [(k, v)]) k := by
      rintro ⟨x, y, hx, hy, hne⟩
      have : ∀ u, (k, u) ∈ claims ++ [(k, v)] → owner u = owner v := by
        intro u hu
        rcases List.mem_append.mp hu with hu | hu
        · exact agree u hu
        · rw [(Prod.mk.inj (List.mem_singleton.mp hu)).2]
      exact hne ((this x hx).trans (this y hy).symm)
    refine ⟨by simp [still, hc], fun hd => absurd hd still, fun u hu => ?_, fun _ _ _ => by simp⟩
    simp only [Function.update_self, Option.some.injEq] at hu
    simp [hu]

lemma board_concat (owner : ν → ι) (claims : List (κ × ν)) (c : κ × ν) :
    board owner (claims ++ [c]) = (board owner claims).claim owner c := by simp [board]

lemma board_settled (owner : ν → ι) (claims : List (κ × ν)) (k : κ) : Settled owner claims (board owner claims) k := by
  induction claims using List.reverseRecOn with
  | nil => exact ⟨by simp [board, Disputed], by simp [board], by simp [board], by simp⟩
  | append_singleton claims c ih =>
    rw [board_concat]
    rcases eq_or_ne k c.1 with rfl | hne
    · exact ih.here c.2
    · exact ih.elsewhere hne

/-- Who holds a place, when claims of one owner on it are one claim: its only claimant. -/
lemma holder_iff (agree : ∀ u v, (k, u) ∈ claims → (k, v) ∈ claims → owner u = owner v → u = v) :
    (board owner claims).holder k = some v ↔ (k, v) ∈ claims ∧ ∀ u, (k, u) ∈ claims → u = v := by
  have settled := board_settled owner claims k
  constructor
  · intro h
    refine ⟨settled.holder v h, fun u hu => agree u v hu (settled.holder v h) ?_⟩
    by_contra hne
    rw [settled.nobody ⟨u, v, hu, settled.holder v h, hne⟩] at h
    cases h
  · rintro ⟨hv, only⟩
    have undisputed : ¬ Disputed owner claims k := by
      rintro ⟨x, y, hx, hy, hne⟩
      exact hne (by rw [only x hx, only y hy])
    obtain ⟨x, hx⟩ := Option.isSome_iff_exists.mp (settled.claimed undisputed v hv)
    rw [hx, only x (settled.holder x hx)]

end StayConnect.Contest
