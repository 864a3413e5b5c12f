import Mathlib.Algebra.Order.BigOperators.Group.Finset
import StayConnect.Netd.Deadline

/-!
# The account of an entitlement

What continuity has charged an entitlement with: the bytes of the sessions that are gone and the last count
of those still in the record. Metering, dropping, revoking and charging only add to it. A block that repeats
the measurement of the record builds the sessions again with nothing counted, carries over what is gone only
for entitlements it still has a session of, and so can take something off the account.
-/

namespace StayConnect.Netd

open Framing Prog Relation Transition

/-- What the session adds to the account of the entitlement. -/
def ContSess.counts (id : Bytes) (s : ContSess) : Nat := if s.base.isSome && s.entitlementID == id then s.lastUsed else 0

/-- What the sessions of the record add to the account. -/
def ContState.live (st : ContState) (id : Bytes) : Nat :=
  ∑ k ∈ st.sessions.keys.toFinset, ((st.sessions.lookup k).map (·.counts id)).getD 0

/-- The bytes charged: those of the sessions gone and of the present ones. -/
def ContState.charged (st : ContState) (id : Bytes) : Nat := ((st.budgets.lookup id).map (·.gone)).getD 0 + st.live id

/-- Every account of the first record is in the second, with no fewer bytes, and spent if it was. -/
def Grows (st st' : ContState) : Prop := ∀ id b, st.budgets.lookup id = some b →
  ∃ b', st'.budgets.lookup id = some b' ∧ st.charged id ≤ st'.charged id ∧ (b.exhausted = true → b'.exhausted = true)

section
variable {p : Powers} {w w' t u x : World} {st st' st'' old : ContState} {id : Bytes} {k : Key}

lemma Grows.refl (st : ContState) : Grows st st := fun _ b hb => ⟨b, hb, Nat.le_refl _, id⟩

lemma Grows.trans (h : Grows st st') (h' : Grows st' st'') : Grows st st'' := by
  intro id b hb
  obtain ⟨b', hb', hle, hex⟩ := h id b hb
  obtain ⟨b'', hb'', hle', hex'⟩ := h' id b' hb'
  exact ⟨b'', hb'', hle.trans hle', fun h => hex' (hex h)⟩

lemma ContState.live_eq {F} (hF : st.sessions.keys.toFinset ⊆ F) :
    st.live id = ∑ k ∈ F, ((st.sessions.lookup k).map (·.counts id)).getD 0 := by
  refine Finset.sum_subset hF fun k _ hk => ?_
  rw [AList.lookup_eq_none.mpr fun h => hk (List.mem_toFinset.mpr (AList.mem_keys.mp h))]
  rfl

lemma ContState.live_meter (counters : Map Key ContCount) : st.live id ≤ (st.meter counters).live id := by
  have hF : (st.meter counters).sessions.keys.toFinset ⊆ st.sessions.keys.toFinset := fun k hk => by
    rw [List.mem_toFinset, ← AList.mem_keys, ← AList.lookup_isSome] at hk ⊢
    simpa [lookup_meter] using hk
  rw [live_eq hF]
  refine Finset.sum_le_sum fun k _ => ?_
  rw [lookup_meter]
  cases st.sessions.lookup k with
  | none => exact Nat.le_refl _
  | some s =>
    obtain ⟨rest, used⟩ := s.meter_later (counters k)
    simp only [Option.map_some, Option.getD_some, ContSess.counts]
    rw [rest]
    split
    · exact used
    · exact Nat.le_refl _

lemma ContState.drop_of_lookup {s} (hs : st.sessions.lookup k = some s) : (st.drop k).sessions = st.sessions.erase k ∧
    (st.drop k).budgets = match s.base, st.budgets.lookup s.entitlementID with
      | some _, some b => st.budgets.insert s.entitlementID { b with gone := b.gone + s.lastUsed }
      | _, _ => st.budgets := by
  rw [drop, hs]
  exact ⟨rfl, rfl⟩

lemma ContState.live_drop {s} (hs : st.sessions.lookup k = some s) : (st.drop k).live id + s.counts id = st.live id := by
  have hk : k ∈ st.sessions.keys.toFinset :=
    List.mem_toFinset.mpr (AList.mem_keys.mp (AList.lookup_isSome.mp (by rw [hs]; rfl)))
  have hF : (st.drop k).sessions.keys.toFinset ⊆ st.sessions.keys.toFinset.erase k := fun j hj => by
    rw [(drop_of_lookup hs).1, List.mem_toFinset, ← AList.mem_keys, AList.mem_erase] at hj
    exact Finset.mem_erase.mpr ⟨hj.1, List.mem_toFinset.mpr (AList.mem_keys.mp hj.2)⟩
  rw [live_eq hF, live, ← Finset.sum_erase_add _ _ hk, hs]
  congr 1
  refine Finset.sum_congr rfl fun j hj => ?_
  rw [(drop_of_lookup hs).1, AList.lookup_erase_ne (Finset.ne_of_mem_erase hj)]

lemma ContState.drop_grows (k : Key) : Grows st (st.drop k) := by
  intro id b hb
  cases hs : st.sessions.lookup k with
  | none =>
    have hdrop : st.drop k = st := by simp only [drop, hs]
    exact ⟨b, by rw [hdrop]; exact hb, by rw [hdrop], fun h => h⟩
  | some s =>
    have hbudgets := (drop_of_lookup hs).2
    rw [charged, charged, ← live_drop hs]
    split at hbudgets
    next base b' hbase hb' =>
      rcases eq_or_ne id s.entitlementID with rfl | hne
      · obtain rfl : b' = b := Option.some.inj (hb'.symm.trans hb)
        have hcounts : s.counts s.entitlementID = s.lastUsed := by simp [ContSess.counts, hbase]
        rw [hbudgets, AList.lookup_insert, hb, hcounts]
        refine ⟨_, rfl, ?_, fun h => h⟩
        simp only [Option.map_some, Option.getD_some]
        omega
      · have hcounts : s.counts id = 0 := by simp [ContSess.counts, Ne.symm hne]
        rw [hbudgets, AList.lookup_insert_ne hne, hcounts]
        exact ⟨b, hb, Nat.le_refl _, fun h => h⟩
    next hnone =>
      have hcounts : s.counts id = 0 := by
        unfold ContSess.counts
        split
        · rename_i h
          simp only [Bool.and_eq_true, beq_iff_eq] at h
          obtain ⟨base, hbase⟩ := Option.isSome_iff_exists.mp h.1
          exact (hnone base b hbase (h.2 ▸ hb)).elim
        · rfl
      rw [hbudgets, hcounts]
      exact ⟨b, hb, Nat.le_refl _, fun h => h⟩

lemma ContState.charge_grows (id : Bytes) (live : Nat) : Grows st (st.charge id live) := by
  intro j b hb
  unfold ContState.charge
  cases hid : st.budgets.lookup id with
  | none => exact ⟨b, hb, Nat.le_refl _, fun h => h⟩
  | some b' =>
    dsimp only
    rcases eq_or_ne j id with rfl | hne
    · obtain rfl : b' = b := Option.some.inj (hid.symm.trans hb)
      refine ⟨_, AList.lookup_insert _, ?_, fun h => by simp [ContBudget.charge, h]⟩
      rw [ContState.charged, ContState.charged, hb, AList.lookup_insert]
      exact Nat.le_refl _
    · refine ⟨b, by rw [AList.lookup_insert_ne hne]; exact hb, ?_, fun h => h⟩
      rw [ContState.charged, ContState.charged, AList.lookup_insert_ne hne]
      exact Nat.le_refl _

lemma ContMove.grows {c c'} (h : ContMove c c') (hst : c'.st = some st') : ∃ st, c.st = some st ∧ Grows st st' := by
  cases h with
  | aside same => exact ⟨st', same ▸ hst, .refl st'⟩
  | lost => cases hst
  | metered counters =>
    obtain ⟨st, hold, rfl⟩ := Option.map_eq_some_iff.mp hst
    exact ⟨st, hold, fun id b hb => ⟨b, hb, Nat.add_le_add_left (ContState.live_meter counters) _, fun h => h⟩⟩
  | dropped k =>
    obtain ⟨st, hold, rfl⟩ := Option.map_eq_some_iff.mp hst
    exact ⟨st, hold, ContState.drop_grows k⟩
  | charged id live =>
    obtain ⟨st, hold, rfl⟩ := Option.map_eq_some_iff.mp hst
    exact ⟨st, hold, ContState.charge_grows id live⟩
  | planned nowBoot dirty =>
    obtain ⟨st, hold, rfl⟩ := Option.map_eq_some_iff.mp hst
    exact ⟨st, hold, .refl st⟩

/-- The record in memory has grown out of the source, and the record on file out of the source or the file. -/
structure Grown (source file : Option ContState) (t : World) : Prop where
  mem : ∀ st, t.mem.cont.st = some st → ∃ st₀, source = some st₀ ∧ Grows st₀ st
  disk : ∀ st, t.disk.contState = some st → ∃ st₀, (source = some st₀ ∨ file = some st₀) ∧ Grows st₀ st

-- Stated for any journal: the kernel would otherwise unfold the pruned one.
lemma Grown.journal {source file} (h : Grown source file t) (journal : List ContRevocation) :
    Grown source file { t with mem.cont.journal := journal } := ⟨h.mem, h.disk⟩

lemma Side.grown {source file} (hn : ∀ env b now, ¬ p.notes env b now) (hr : p.restores → file = source)
    (act : Side p t u) (h : Grown source file t) : Grown source file u := by
  cases act with
  | cont c hc =>
    refine ⟨fun st hst => ?_, h.disk⟩
    obtain ⟨st₁, hst₁, grows⟩ := hc.grows hst
    obtain ⟨st₀, hst₀, grows₀⟩ := h.mem st₁ hst₁
    exact ⟨st₀, hst₀, grows₀.trans grows⟩
  | pruned env b now note | accepted env b bootID nowBoot now note => exact (hn env b now note).elim
  | saved st hst =>
    refine ⟨h.mem, fun st' hst' => ?_⟩
    obtain rfl := Option.some.inj hst'
    obtain ⟨st₀, hst₀, grows⟩ := h.mem st hst
    exact ⟨st₀, .inl hst₀, grows⟩
  | unsaved => exact ⟨h.mem, nofun⟩
  | stateRead st hp hst =>
    refine ⟨fun st' hst' => ?_, h.disk⟩
    obtain rfl := Option.some.inj hst'
    obtain ⟨st₀, hst₀ | hst₀, grows⟩ := h.disk st hst
    · exact ⟨st₀, hst₀, grows⟩
    · exact ⟨st₀, hr hp ▸ hst₀, grows⟩
  | entry | journalRead => exact h.journal _
  | _ => exact ⟨h.mem, h.disk⟩

lemma sides_grown {source file} (hn : ∀ env b now, ¬ p.notes env b now) (hr : p.restores → file = source)
    (moves : ReflTransGen (Side p) w w') (h : Grown source file w) : Grown source file w' :=
  keep (S := Grown source file) (fun act h => act.grown hn hr h) moves h

/-- The budget with what the old one carries over. -/
def ContBudget.carry (b : ContBudget) : Option ContBudget → ContBudget
  | some o => { b with gone := o.gone, exhausted := b.exhausted || o.exhausted }
  | none => b

lemma lookup_carryBudget {budgets t id'} : (carryBudget budgets t id').lookup id =
    if id = id' then (t.lookup id).map (·.carry (budgets.lookup id)) else t.lookup id := by
  unfold carryBudget
  split
  next b o hb ho =>
    rcases eq_or_ne id id' with rfl | hne
    · simp [hb, ho, ContBudget.carry]
    · simp [hne, AList.lookup_insert_ne hne]
  next hnone =>
    rcases eq_or_ne id id' with rfl | hne
    · cases hb : t.lookup id with
      | none => simp
      | some b =>
        cases ho : budgets.lookup id with
        | none => simp [ContBudget.carry]
        | some o => exact (hnone b o hb ho).elim
    · simp [hne]

lemma lookup_foldl_carryBudget {budgets t : Table Bytes ContBudget} {ids : List Bytes} (hids : ids.Nodup) :
    (ids.foldl (carryBudget budgets) t).lookup id =
      if id ∈ ids then (t.lookup id).map (·.carry (budgets.lookup id)) else t.lookup id := by
  induction ids generalizing t with
  | nil => rfl
  | cons id' rest ih =>
    obtain ⟨hnew, hrest⟩ := List.nodup_cons.mp hids
    rw [List.foldl_cons, ih hrest, lookup_carryBudget]
    rcases eq_or_ne id id' with rfl | hne
    · simp [hnew]
    · simp [hne]

/-- An entitlement the repeated block still has a session of keeps what is gone, and stays spent. -/
lemma ContState.carry_budget {b : ContBudget} (hb : old.budgets.lookup id = some b)
    (h : ((st.carry old).budgets.lookup id).isSome = true) :
    ∃ b', (st.carry old).budgets.lookup id = some b' ∧ b'.gone = b.gone ∧ (b.exhausted = true → b'.exhausted = true) := by
  have hlookup : (st.carry old).budgets.lookup id = if id ∈ st.budgets.keys then (st.budgets.lookup id).map (·.carry (old.budgets.lookup id))
      else st.budgets.lookup id := lookup_foldl_carryBudget st.budgets.nodupKeys
  obtain ⟨b', hb'⟩ := Option.isSome_iff_exists.mp h
  refine ⟨b', hb', ?_⟩
  rw [hlookup, hb] at hb'
  split at hb'
  · obtain ⟨b₀, -, rfl⟩ := Option.map_eq_some_iff.mp hb'
    exact ⟨rfl, fun hex => by simp [ContBudget.carry, hex]⟩
  next hmem => exact (hmem (AList.mem_keys.mp (AList.lookup_isSome.mp (by rw [hb']; rfl)))).elim

lemma contStateOf_carry {env b m bootID nowBoot now}
    (hold : m.cont.st = some old) (same : old.asOf = b.asOf) : ∃ st : ContState, contStateOf env b m bootID nowBoot now = st.carry old := by
  unfold contStateOf
  dsimp only
  rw [hold]
  exact ⟨_, if_pos same⟩

end

def World.budget (w : World) (id : Bytes) : Option ContBudget := w.mem.cont.st.bind fun st => st.budgets.lookup id

def World.charged (w : World) (id : Bytes) : Nat := (w.mem.cont.st.map fun st => st.charged id).getD 0

/-- A step under one measurement that keeps the accounts: the record is not lost, a start finds it saved, and a
repeated block comes when none of its entitlements has counted bytes of present sessions and still has a session
of each. -/
structure Conserving (w : World) (op : Op) (w' : World) : Prop where
  stepped : step w op = some w'
  held : w.mem.cont.st.isSome → w'.mem.cont.st.isSome
  measured : ∀ st st', w.mem.cont.st = some st → w'.mem.cont.st = some st' → st'.asOf = st.asOf
  saved : op.starts → w.mem.cont.st.isSome → w.disk.contState = w.mem.cont.st
  repeated : ∀ env now st, op = .submit env now → env.continuity.isSome → w.mem.cont.st = some st →
    w'.mem.cont.st ≠ some st → ∀ id, (st.budgets.lookup id).isSome → st.live id = 0 ∧ (w'.budget id).isSome

section
variable {w w' : World} {op : Op} {ops : List Op} {st : ContState}

lemma RecordStep.grows (h : RecordStep w op w') (hst : w.mem.cont.st = some st) (conserving : Conserving w op w') :
    ∃ st', w'.mem.cont.st = some st' ∧ Grows st st' := by
  obtain ⟨st', hst'⟩ := Option.isSome_iff_exists.mp (conserving.held (by rw [hst]; rfl))
  refine ⟨st', hst', ?_⟩
  cases h with
  | still _ same =>
    obtain rfl : st' = st := Option.some.inj (hst'.symm.trans (same ▸ hst))
    exact .refl _
  | sides _ plain _ moves =>
    have grown : Grown w.mem.cont.st w.disk.contState w := ⟨fun st h => ⟨st, h, .refl st⟩, fun st h => ⟨st, .inr h, .refl st⟩⟩
    obtain ⟨st₀, hst₀, grows⟩ := (sides_grown plain.notes (fun h => (plain.restores h).elim) moves grown).mem st' hst'
    obtain rfl : st = st₀ := Option.some.inj (hst.symm.trans hst₀)
    exact grows
  | @started x _ _ hop fresh hdisk _ moves =>
    have hsaved : w.disk.contState = some st := (conserving.saved hop (by rw [hst]; rfl)).trans hst
    have grown : Grown (some st) (some st) x := by
      refine ⟨fun st₁ h => ?_, fun st₁ h => ⟨st, .inl rfl, ?_⟩⟩
      · rw [fresh] at h
        cases h
      · obtain rfl : st = st₁ := Option.some.inj ((hdisk.trans hsaved).symm.trans h)
        exact .refl st
    obtain ⟨st₀, hst₀, grows⟩ := (sides_grown (fun _ _ _ => id) (fun _ => rfl) moves grown).mem st' hst'
    obtain rfl := Option.some.inj hst₀
    exact grows
  | @noted x _ env now same moves hnote =>
    have noted : PlanNoted env now x w' := hnote ▸ contNotePlan_wp.2
    have hx : x.mem.cont.st = some st := by rw [same.cont, hst]
    cases noted with
    | lost hnone => rw [hst'] at hnone; cases hnone
    | kept nowBoot _ hkept =>
      rw [hst', hx] at hkept
      obtain rfl := Option.some.inj hkept
      exact .refl st
    | accepted b m bootID nowBoot hblock _ hm _ haccepted =>
      obtain rfl : st' = contStateOf env b m bootID nowBoot now := Option.some.inj (hst'.symm.trans haccepted)
      rw [hx] at hm
      by_cases hsame : w'.mem.cont.st = some st
      · rw [hst'] at hsame
        rw [Option.some.inj hsame]
        exact .refl st
      have asOf : st.asOf = b.asOf := (conserving.measured st _ hst hst').symm.trans contStateOf_asOf
      have carried : ∃ built : ContState, contStateOf env b m bootID nowBoot now = built.carry { st with lastPlanBoot := nowBoot } :=
        contStateOf_carry hm asOf
      obtain ⟨built, hcarry⟩ := carried
      intro id a ha
      obtain ⟨unused, listed⟩ := conserving.repeated env now st rfl (by rw [hblock]; rfl) hst hsame id (by rw [ha]; rfl)
      rw [World.budget, hst'] at listed
      rw [hcarry] at listed ⊢
      have ha₀ : ({ st with lastPlanBoot := nowBoot } : ContState).budgets.lookup id = some a := ha
      obtain ⟨a', ha', gone, hex⟩ := ContState.carry_budget ha₀ listed
      refine ⟨a', ha', ?_, hex⟩
      rw [ContState.charged, ContState.charged, ha, ha', unused]
      simp only [Option.map_some, Option.getD_some, gone]
      omega

lemma Conserving.grows (base : Base w) (conserving : Conserving w op w') (hst : w.mem.cont.st = some st) :
    ∃ st', w'.mem.cont.st = some st' ∧ Grows st st' :=
  (step_stepped base conserving.stepped).recordStep.grows hst conserving

end

/-- A plan whose block was measured at `asOf` and leaves the entitlement four hundred bytes. -/
def budgetedFor (gen : Int) (now asOf : Nat) (sessions : List Session) : Envelope :=
  { planFor gen now sessions with
    continuity := (vouchedFor gen asOf sessions).continuity.map fun b => { b with budgets := [⟨['e'], 400⟩] } }

/-- The guest's counters are sampled, and a plan with a budget is noted. -/
def measured : List Op :=
  [.arrive 1, .submit (vouchedFor 1 1000 [entitledGuest 'a' '1']) 1000, .tickRead 1000, .tickBegin, .arrive 2,
    .submit (budgetedFor 2 2000 2000 [entitledGuest 'a' '1']) 2000]

end StayConnect.Netd
