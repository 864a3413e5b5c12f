import Mathlib.Data.List.Basic

/-!
# First-match filters

A chain of rules over packets of any type. The first rule all of whose conditions hold decides; a chain none of whose rules fires
leaves the packet to what comes after it.
-/

namespace StayConnect.Filter

inductive Verdict where
  | accept
  | drop
deriving DecidableEq, Repr

/-- Conditions and what happens to a packet that meets them all. -/
structure Rule (κ : Type*) where
  conds : List κ
  verdict : Verdict

def Rule.map {κ κ' : Type*} (f : κ → κ') (r : Rule κ) : Rule κ' := ⟨r.conds.map f, r.verdict⟩

variable {κ π : Type*} (holds : κ → π → Bool)

def Rule.fires (r : Rule κ) (p : π) : Bool := r.conds.all (holds · p)

/-- The verdict of the first rule that fires. -/
def decided (p : π) : List (Rule κ) → Option Verdict
  | [] => none
  | r :: rest => if r.fires holds p then some r.verdict else decided p rest

/-- A chain whose policy is to drop. -/
def accepts (chain : List (Rule κ)) (p : π) : Bool := decided holds p chain == some .accept

variable {holds} {p : π} {rules rest : List (Rule κ)}

theorem fires_iff {r : Rule κ} : r.fires holds p ↔ ∀ c ∈ r.conds, holds c p := by
  simp [Rule.fires]

theorem accepts_nil : ¬ accepts holds ([] : List (Rule κ)) p := by
  simp [accepts, decided]

theorem accepts_cons {r} :
    accepts holds (r :: rest) p ↔ r.fires holds p ∧ r.verdict = .accept ∨ ¬ r.fires holds p ∧ accepts holds rest p := by
  simp only [accepts, decided]
  cases r.fires holds p with
  | true | false => simp

/-- Past rules that only drop, a packet got by every one of them. -/
theorem accepts_drops (hd : ∀ r ∈ rules, r.verdict = .drop) (h : accepts holds (rules ++ rest) p) :
    (∀ r ∈ rules, ¬ r.fires holds p) ∧ accepts holds rest p := by
  induction rules with
  | nil => exact ⟨fun r hr => absurd hr List.not_mem_nil, h⟩
  | cons r rules ih =>
    obtain ⟨_, ha⟩ | ⟨hn, h⟩ := accepts_cons.mp h
    · rw [hd r List.mem_cons_self] at ha
      cases ha
    obtain ⟨hs, h⟩ := ih (fun r hr => hd r (List.mem_cons_of_mem _ hr)) h
    refine ⟨?_, h⟩
    intro r' hr'
    cases hr' with
    | head => exact hn
    | tail _ hr' => exact hs r' hr'

/-- Past any rules, one of them accepted the packet or what follows does. -/
theorem accepts_append (h : accepts holds (rules ++ rest) p) :
    (∃ r ∈ rules, r.verdict = .accept ∧ r.fires holds p) ∨ accepts holds rest p := by
  induction rules with
  | nil => exact .inr h
  | cons r rules ih =>
    obtain ⟨hf, ha⟩ | ⟨_, h⟩ := accepts_cons.mp h
    · exact .inl ⟨r, List.mem_cons_self, ha, hf⟩
    · obtain ⟨r', hr', h'⟩ | h := ih h
      · exact .inl ⟨r', List.mem_cons_of_mem _ hr', h'⟩
      · exact .inr h

theorem accepts_map {κ' holds} (f : κ → κ') : accepts holds (rules.map (Rule.map f)) p = accepts (fun c => holds (f c)) rules p := by
  unfold accepts
  congr 1
  induction rules with
  | nil => rfl
  | cons r rules ih =>
    have same : (r.map f).fires holds p = r.fires (fun c => holds (f c)) p := by
      simp [Rule.fires, Rule.map, Function.comp_def]
    rw [List.map_cons, decided, decided, same, ih]
    rfl

end StayConnect.Filter
