import Mathlib.Data.Finset.Card
import Mathlib.Data.List.Sort
import Mathlib.Data.String.Basic
import StayConnect.Netd.Shape

/-!
# Subnet ids

Kea ties a lease to a subnet id, so a network's subnet id comes from its own id: the FNV-1a hash, or the next free value where a
network before it in id order has that one.
-/

namespace StayConnect.Netcfg

/-- The first value from `v` on that is not used. After as many steps as there are values the
loop would not end. -/
def probe (used : List Nat) : Nat → Nat → Option Nat
  | 0, _ => none
  | steps + 1, v => if v ∈ used then probe used steps (v % 0x7ffffffe + 1) else some v

/-- The loop over the sorted ids, with the map so far, the latest first. -/
def assign (hash : String → Nat) : List (String × Nat) → List String → Option (List (String × Nat))
  | out, [] => some out
  | out, id :: ids =>
    (probe (out.map (·.2)) 0x7ffffffe ((hash id &&& 0x7fffffff) % 0x7ffffffe + 1)).bind fun v => assign hash ((id, v) :: out) ids

/-- `StableSubnetIDs` of the networks with these ids; the source hashes the bytes of an id with `fnv32a`. -/
def stableSubnetIDs (hash : String → Nat) (ids : List String) : Option (List (String × Nat)) :=
  assign hash [] (ids.insertionSort (· ≤ ·))

/-- Where the loop ran out, the values it tried are all used. -/
lemma probe_none {used steps v i} (low : 1 ≤ v) (high : v ≤ 0x7ffffffe) (h : probe used steps v = none)
    (hi : i < steps) : (v - 1 + i) % 0x7ffffffe + 1 ∈ used := by
  induction steps generalizing v i with
  | zero => omega
  | succ steps ih =>
    simp only [probe] at h
    split at h
    next taken =>
      cases i with
      | zero => rwa [show (v - 1 + 0) % 0x7ffffffe + 1 = v by omega]
      | succ i =>
        have next := ih (i := i) (by omega) (by omega) h (by omega)
        rwa [show (v % 0x7ffffffe + 1 - 1 + i) % 0x7ffffffe = (v - 1 + (i + 1)) % 0x7ffffffe by omega] at next
    next => cases h

lemma probe_some {used steps v w} (low : 1 ≤ v) (high : v ≤ 0x7ffffffe) (h : probe used steps v = some w) :
    w ∉ used ∧ 1 ≤ w ∧ w ≤ 0x7ffffffe := by
  induction steps generalizing v with
  | zero => cases h
  | succ steps ih =>
    simp only [probe] at h
    split at h
    next => exact ih (by omega) (by omega) h
    next free =>
      cases h
      exact ⟨free, low, high⟩

/-- With fewer values used than there are the loop ends: else as many different values as it takes steps are used. -/
lemma probe_ends {used v} (low : 1 ≤ v) (high : v ≤ 0x7ffffffe) (few : used.length < 0x7ffffffe) :
    ∃ w, probe used 0x7ffffffe v = some w := by
  refine Option.ne_none_iff_exists'.mp fun out => ?_
  have bound : (Finset.range 0x7ffffffe).card ≤ used.toFinset.card := by
    apply Finset.card_le_card_of_injOn fun i => (v - 1 + i) % 0x7ffffffe + 1
    · intro i hi
      simpa using probe_none low high out (Finset.mem_range.mp hi)
    · intro i hi j hj same
      simp only [Finset.coe_range, Set.mem_Iio] at hi hj same
      omega
  have := used.toFinset_card_le
  rw [Finset.card_range] at bound
  omega

/-- A map whose values are subnet ids, no two the same. -/
structure Assigned (out : List (String × Nat)) : Prop where
  range : ∀ p ∈ out, 1 ≤ p.2 ∧ p.2 ≤ 0x7ffffffe
  apart : (out.map (·.2)).Nodup

lemma assign_assigned (hash : String → Nat) {ids out} (held : Assigned out) (few : out.length + ids.length ≤ 0x7ffffffe) :
    ∃ out', assign hash out ids = some out' ∧ Assigned out' ∧ out'.map (·.1) = ids.reverse ++ out.map (·.1) := by
  induction ids generalizing out with
  | nil => exact ⟨out, rfl, held, rfl⟩
  | cons id ids ih =>
    rw [List.length_cons] at few
    have high : (hash id &&& 0x7fffffff) % 0x7ffffffe + 1 ≤ 0x7ffffffe := by omega
    have free : (out.map (·.2)).length < 0x7ffffffe := by
      rw [List.length_map]
      omega
    obtain ⟨v, hv⟩ := probe_ends (by omega) high free
    obtain ⟨new, range⟩ := probe_some (by omega) high hv
    have held' : Assigned ((id, v) :: out) :=
      ⟨List.forall_mem_cons.mpr ⟨range, held.range⟩, List.nodup_cons.mpr ⟨new, held.apart⟩⟩
    obtain ⟨out', all, assigned, keys⟩ := ih held' (by rw [List.length_cons]; omega)
    exact ⟨out', by rw [assign, hv, Option.bind_some, all], assigned, by simp [keys]⟩

theorem stableSubnetIDs_stable (hash : String → Nat) (ids : List String) (few : ids.length < 0x7ffffffe) :
    ∃ out, stableSubnetIDs hash ids = some out ∧ (∀ id ∈ ids, ∃ v, out.lookup id = some v ∧ 1 ≤ v ∧ v ≤ 2 ^ 31 - 1) ∧
      (∀ a ∈ ids, ∀ b ∈ ids, out.lookup a = out.lookup b → a = b) ∧
      ∀ ids', ids'.Perm ids → stableSubnetIDs hash ids' = some out := by
  have none : Assigned [] := ⟨by simp, by simp⟩
  have room : 0 + (ids.insertionSort (· ≤ ·)).length ≤ 0x7ffffffe := by
    rw [List.length_insertionSort]
    omega
  obtain ⟨out, all, assigned, keys⟩ := assign_assigned hash none room
  have entry : ∀ id ∈ ids, ∃ v, out.lookup id = some v ∧ (id, v) ∈ out := by
    intro id hid
    cases found : out.lookup id with
    | none =>
      have key : id ∈ out.map (·.1) := by simpa [keys] using hid
      obtain ⟨p, hp, rfl⟩ := List.mem_map.mp key
      simpa using List.lookup_eq_none_iff.mp found p hp
    | some v =>
      obtain ⟨l, l', rfl, -⟩ := List.lookup_eq_some_iff.mp found
      exact ⟨v, rfl, by simp⟩
  refine ⟨out, all, fun id hid => ?_, fun a ha b hb same => ?_, fun ids' perm => ?_⟩
  · obtain ⟨v, found, mem⟩ := entry id hid
    have := assigned.range _ mem
    exact ⟨v, found, this.1, by omega⟩
  · obtain ⟨v, found, mem⟩ := entry a ha
    obtain ⟨w, found', mem'⟩ := entry b hb
    have value : v = w := Option.some.inj (found.symm.trans (same.trans found'))
    exact congrArg Prod.fst (List.inj_on_of_nodup_map assigned.apart mem mem' value)
  · have sorted : ids'.insertionSort (· ≤ ·) = ids.insertionSort (· ≤ ·) :=
      List.Perm.eq_of_pairwise' (ids'.pairwise_insertionSort _) (ids.pairwise_insertionSort _)
        ((ids'.perm_insertionSort _).trans (perm.trans (ids.perm_insertionSort _).symm))
    rw [stableSubnetIDs, sorted]
    exact all

theorem stableSubnetIDs_stable_two : ∃ out, stableSubnetIDs (fun id => Netd.fnv32a id.toList) ["b", "a"] = some out ∧
    stableSubnetIDs (fun id => Netd.fnv32a id.toList) ["a", "b"] = some out :=
  let ⟨out, all, _, _, perm⟩ := stableSubnetIDs_stable (fun id => Netd.fnv32a id.toList) ["b", "a"] (by decide)
  ⟨out, all, perm _ (.swap ..)⟩

end StayConnect.Netcfg
