import Mathlib.Tactic.Lemma
import Mathlib.Data.List.Basic
import Mathlib.Data.List.Infix

/-!
# Hash chains

Entries carry a hash and the hash of the entry before them. Where equal hashes bind what was hashed, two chains that agree
on the hash at one position agree on everything up to it (`agree`), so a chain whose last hash stands at the same position of
another is a prefix of it (`prefix_of_last`).
-/

namespace StayConnect.HashChain

variable {ε η γ : Type*} (hash prev : ε → η) (core : ε → γ)

/-- Each entry names the hash of the one before it. -/
def Linked (xs : List ε) : Prop :=
  ∀ n a b, xs[n]? = some a → xs[n + 1]? = some b → prev b = hash a

/-- An entry of one list and one of the other with the same hash hold the same, the link included. -/
def Binding (xs ys : List ε) : Prop :=
  ∀ a ∈ xs, ∀ b ∈ ys, hash a = hash b → core a = core b ∧ prev a = prev b

variable {hash prev core} {xs ys : List ε}

/-- Chains that agree on one hash agree up to it. -/
lemma agree (linkedx : Linked hash prev xs) (linkedy : Linked hash prev ys) (bind : Binding hash prev core xs ys) {n a b}
    (hx : xs[n]? = some a) (hy : ys[n]? = some b) (same : hash a = hash b) :
    (xs.take (n + 1)).map core = (ys.take (n + 1)).map core := by
  -- induction on the position, from the shared hash downwards along the links
  induction n generalizing a b with
  | zero =>
    obtain ⟨cores, -⟩ := bind a (List.mem_of_getElem? hx) b (List.mem_of_getElem? hy) same
    rw [List.take_add_one, List.take_add_one, hx, hy]
    simp [cores]
  | succ n ih =>
    obtain ⟨cores, links⟩ := bind a (List.mem_of_getElem? hx) b (List.mem_of_getElem? hy) same
    have before {zs : List ε} {c : ε} (h : zs[n + 1]? = some c) : ∃ z, zs[n]? = some z := by
      have lt := (List.getElem?_eq_some_iff.mp h).1
      exact ⟨_, List.getElem?_eq_getElem (Nat.lt_of_succ_lt lt)⟩
    obtain ⟨a', hx'⟩ := before hx
    obtain ⟨b', hy'⟩ := before hy
    have linked : hash a' = hash b' := by
      rw [← linkedx n a' a hx' hx, ← linkedy n b' b hy' hy]
      exact links
    have extended {zs : List ε} {c : ε} (h : zs[n + 1]? = some c) : zs.take (n + 1 + 1) = zs.take (n + 1) ++ [c] := by
      rw [List.take_add_one, h, Option.toList_some]
    rw [extended hx, extended hy, List.map_append, List.map_append, ih hx' hy' linked]
    simp [cores]

/-- A chain whose last hash stands at the same position of another is a prefix of it. -/
lemma prefix_of_last (linkedx : Linked hash prev xs) (linkedy : Linked hash prev ys) (bind : Binding hash prev core xs ys) {a b}
    (hx : xs.getLast? = some a) (hy : ys[xs.length - 1]? = some b) (same : hash a = hash b) : xs.map core <+: ys.map core := by
  have last : xs[xs.length - 1]? = some a := by rw [← hx, List.getLast?_eq_getElem?]
  have upTo := agree linkedx linkedy bind last hy same
  have pos : xs.length - 1 + 1 = xs.length := by
    have := (List.getElem?_eq_some_iff.mp last).1
    omega
  rw [pos, List.take_length, List.map_take] at upTo
  exact upTo ▸ List.take_prefix _ _

end StayConnect.HashChain
