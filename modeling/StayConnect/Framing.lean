import Mathlib.Algebra.Ring.Int.Defs
import Mathlib.Algebra.Ring.Nat
import Mathlib.Tactic.Lemma
import Mathlib.Data.List.Basic
import Mathlib.Logic.Function.Basic

/-!
# Length-prefixed tokens

`frame sep s` writes a token as its decimal length, a colon, its bytes and a separator. The encoding is
boundary safe whatever the tokens contain: a framed token can be read off the front of any text
(`frame_append_inj`), so the framing of a list of tokens is injective (`frames_injective`).
-/

namespace StayConnect.Framing

/-- A byte string; a byte is the character of its code. -/
abbrev Bytes := List Char

instance : LawfulBEq Bytes := inferInstance

/-- One token: decimal length, colon, bytes, separator. -/
def frame (sep : Char) (s : Bytes) : Bytes :=
  Nat.toDigits 10 s.length ++ ':' :: (s ++ [sep])

def frames (sep : Char) (ss : List Bytes) : Bytes :=
  ss.flatMap (frame sep)

lemma colon_notMem_toDigits (n : Nat) : ':' ∉ Nat.toDigits 10 n := by
  intro h
  have : Char.isDigit ':' = true := Nat.isDigit_of_mem_toDigits (by decide) (by decide) h
  exact absurd this (by decide)

lemma toDigits_injective : Function.Injective (Nat.toDigits 10) := by
  intro m n h
  rw [← Nat.ofDigitChars_ten_toDigits (n := m), h, Nat.ofDigitChars_ten_toDigits]

lemma isDigit_of_mem_repr {n : Int} {ch} (h : ch ∈ n.repr.toList) : ch.isDigit = true ∨ ch = '-' := by
  rw [Int.repr_eq_if] at h
  split at h
  · rw [Nat.toList_repr] at h
    exact .inl (Nat.isDigit_of_mem_toDigits (by decide) (by decide) h)
  rw [String.toList_append, Nat.toList_repr, List.mem_append] at h
  rcases h with sign | digit
  · exact .inr (by simpa using sign)
  · exact .inl (Nat.isDigit_of_mem_toDigits (by decide) (by decide) digit)

lemma repr_injective {m n : Int} (h : m.repr = n.repr) : m = n := by
  -- a numeral without a sign does not hold one
  have unsigned (k l : Nat) : Nat.repr k ≠ "-" ++ Nat.repr l := by
    intro e
    have sign : '-' ∈ (Nat.repr k).toList := by simp [e]
    rw [Nat.toList_repr] at sign
    exact absurd (Nat.isDigit_of_mem_toDigits (by decide) (by decide) sign) (by decide)
  rw [Int.repr_eq_if, Int.repr_eq_if] at h
  split at h
  · split at h
    · have same : m.toNat = n.toNat := toDigits_injective (by rw [← Nat.toList_repr, h, Nat.toList_repr])
      omega
    · exact absurd h (unsigned _ _)
  · split at h
    · exact absurd h.symm (unsigned _ _)
    · have same : (-m).toNat = (-n).toNat := toDigits_injective (by rw [← Nat.toList_repr, (String.append_right_inj "-").mp h, Nat.toList_repr])
      omega

lemma append_colon_inj {x y} (hx : ':' ∉ x) (hy : ':' ∉ y) {r t} (h : x ++ ':' :: r = y ++ ':' :: t) : x = y ∧ r = t := by
  induction x generalizing y with
  | nil =>
    cases y with
    | nil => exact ⟨rfl, (List.cons.inj h).2⟩
    | cons c y =>
      obtain ⟨rfl, -⟩ := List.cons.inj h
      exact absurd (List.mem_cons_self ..) hy
  | cons c x ih =>
    cases y with
    | nil =>
      obtain ⟨rfl, -⟩ := List.cons.inj h
      exact absurd (List.mem_cons_self ..) hx
    | cons d y =>
      obtain ⟨rfl, h'⟩ := List.cons.inj h
      obtain ⟨rfl, e⟩ := ih (fun m => hx (List.mem_cons_of_mem _ m))
        (fun m => hy (List.mem_cons_of_mem _ m)) h'
      exact ⟨rfl, e⟩

lemma frame_append_inj {sep a b r t} (h : frame sep a ++ r = frame sep b ++ t) : a = b ∧ r = t := by
  simp only [frame, List.append_assoc, List.cons_append] at h
  obtain ⟨len, rest⟩ := append_colon_inj (colon_notMem_toDigits _) (colon_notMem_toDigits _) h
  obtain ⟨rfl, tail⟩ := List.append_inj rest (toDigits_injective len)
  exact ⟨rfl, (List.cons.inj tail).2⟩

lemma frames_injective (sep : Char) : Function.Injective (frames sep) := by
  intro as bs h
  induction as generalizing bs with
  | nil =>
    cases bs with
    | nil => rfl
    | cons b bs => simp [frames, frame] at h
  | cons a as ih =>
    cases bs with
    | nil => simp [frames, frame] at h
    | cons b bs =>
      simp only [frames, List.flatMap_cons] at h
      obtain ⟨rfl, rest⟩ := frame_append_inj h
      rw [ih rest]

end StayConnect.Framing
