import StayConnect.Contest
import StayConnect.Netd.Claims

/-!
# Who holds a class

The claims a plan makes (`claimsOf`), read off the plan as a set: a class is held when its claimants are
one session, contested when they are two or more, and what is reported of it names all of them. The loop
is the table of `Contest` over the entries that reach it.
-/

namespace StayConnect.Netd

open Framing Contest

variable {ctx : ClaimCtx} {sessions : List Session} {slot : Slot} {x : Wanted}

/-- The class an entry claims; `none` when it is refused, torn down or left to the removed networks. -/
def ClaimCtx.claimed (ctx : ClaimCtx) (s : Session) : Option (Slot × Wanted) :=
  if s.bridge = [] || ctx.retired s.bridge || s.bridge ∉ ctx.bridges || !s.entitled || s.bridge ∈ ctx.shared then none
  else (ctx.parseIP s.ip).bind fun ip =>
    if s.downKbps ≤ 0 || s.upKbps ≤ 0 then none
    else (minorFor ctx.nets ⟨s.bridge, ip⟩).map fun minor => (⟨s.bridge, minor⟩, ⟨s, ⟨s.bridge, ip⟩⟩)

/-- The claims of a plan, in its order. -/
def ClaimCtx.claims (ctx : ClaimCtx) (sessions : List Session) : List (Slot × Wanted) :=
  sessions.filterMap ctx.claimed

def Wanted.sessionID (x : Wanted) : Bytes := x.s.sessionID

/-- The class and a session a report of a clash names. -/
def Problem.names : Problem → Slot → Bytes → Prop
  | .contested bridge one minor, slot, id => slot = ⟨bridge, minor⟩ ∧ id = one
  | .conflict bridge other one minor, slot, id => slot = ⟨bridge, minor⟩ ∧ (id = other ∨ id = one)
  | _, _, _ => False

/-- The session is reported as withheld from the class. -/
def Claims.reports (c : Claims) (slot : Slot) (id : Bytes) : Prop := ∃ p ∈ c.problems, p.names slot id

/-- What the entry at hand claims is known from the entry alone. -/
structure Claimed (ctx : ClaimCtx) (slot : Slot) (x : Wanted) : Prop where
  device : x.s.bridge = slot.device
  bridge : x.addr.bridge = slot.device
  minor : minorFor ctx.nets x.addr = some slot.minor
  entitled : x.s.entitled = true
  declared : slot.device ∈ ctx.bridges
  parsed : ctx.parseIP x.s.ip = some x.addr.ip

lemma ClaimCtx.claimed_spec {s} (h : ctx.claimed s = some (slot, x)) : x.s = s ∧ Claimed ctx slot x := by
  unfold ClaimCtx.claimed at h
  split at h
  · cases h
  next hguard =>
    obtain ⟨ip, hip, h⟩ := Option.bind_eq_some_iff.mp h
    split at h
    · cases h
    obtain ⟨minor, hminor, h⟩ := Option.map_eq_some_iff.mp h
    obtain ⟨rfl, rfl⟩ := Prod.mk.inj h
    simp only [Bool.or_eq_true, decide_eq_true_eq, not_or] at hguard
    exact ⟨rfl, rfl, rfl, hminor, by simpa using hguard.1.2, by simpa using hguard.1.1.2, hip⟩

lemma claims_spec (h : (slot, x) ∈ ctx.claims sessions) : x.s ∈ sessions ∧ Claimed ctx slot x := by
  obtain ⟨s, hs, hx⟩ := List.mem_filterMap.mp h
  obtain ⟨rfl, hc⟩ := ctx.claimed_spec hx
  exact ⟨hs, hc⟩

lemma Claimed.slot_of_addr {slot' y} (h : Claimed ctx slot x) (h' : Claimed ctx slot' y) (ha : x.addr = y.addr) : slot = slot' := by
  have hdevice : slot.device = slot'.device := by rw [← h.bridge, ← h'.bridge, ha]
  have hminor : some slot.minor = some slot'.minor := by rw [← h.minor, ← h'.minor, ha]
  cases slot
  cases slot'
  simp_all

lemma Claims.add_unclaimed (c : Claims) {s} (h : ctx.claimed s = none) :
    (c.add ctx s).desired = c.desired ∧ (c.add ctx s).clashed = c.clashed ∧
      ∀ slot id, (c.add ctx s).reports slot id ↔ c.reports slot id := by
  have report : ∀ (q : Claims) (p : Problem), (∀ slot id, ¬ p.names slot id) → q.problems = c.problems ++ [p] →
      ∀ slot id, q.reports slot id ↔ c.reports slot id := by
    intro q p hp hq slot id
    simp [Claims.reports, hq, hp]
  unfold Claims.add
  unfold ClaimCtx.claimed at h
  split
  · exact ⟨rfl, rfl, report _ _ (by simp [Problem.names]) rfl⟩
  split
  · exact ⟨rfl, rfl, report _ _ (by simp [Problem.names]) rfl⟩
  split
  · exact ⟨rfl, rfl, report _ _ (by simp [Problem.names]) rfl⟩
  split
  · exact ⟨rfl, rfl, fun _ _ => Iff.rfl⟩
  split
  · exact ⟨rfl, rfl, report _ _ (by simp [Problem.names]) rfl⟩
  rw [if_neg (by simp_all)] at h
  split
  · exact ⟨rfl, rfl, report _ _ (by simp [Problem.names]) rfl⟩
  split
  · exact ⟨rfl, rfl, report _ _ (by simp [Problem.names]) rfl⟩
  split
  · exact ⟨rfl, rfl, report _ _ (by simp [Problem.names]) rfl⟩
  · simp_all

lemma Claims.add_claimed (c : Claims) {s} (h : ctx.claimed s = some (slot, x)) : c.add ctx s = c.claim slot x := by
  unfold ClaimCtx.claimed at h
  split at h
  · cases h
  next hguard =>
    obtain ⟨ip, hip, h⟩ := Option.bind_eq_some_iff.mp h
    split at h
    · cases h
    rename_i hrate
    obtain ⟨minor, hminor, h⟩ := Option.map_eq_some_iff.mp h
    obtain ⟨rfl, rfl⟩ := Prod.mk.inj h
    simp only [Bool.or_eq_true, decide_eq_true_eq, not_or, Bool.not_eq_true, Bool.not_eq_false'] at hguard
    unfold Claims.add
    rw [if_neg hguard.1.1.1.1, if_neg (by simp [hguard.1.1.1.2]), if_neg hguard.1.1.2, if_neg (by simp [hguard.1.2]),
      if_neg hguard.2, hip]
    dsimp only
    rw [if_neg hrate, hminor]

/-- The loop's maps show the table of the claims it has seen, and its reports name the claimants of the
contested classes. -/
structure Shows (seen : List (Slot × Wanted)) (c : Claims) : Prop where
  desired : ∀ slot, c.desired.lookup slot = (board Wanted.sessionID seen).holder slot
  clashed : ∀ slot, (c.clashed slot).isSome = (board Wanted.sessionID seen).contested slot
  reports : ∀ slot id, c.reports slot id ↔
    Disputed Wanted.sessionID seen slot ∧ ∃ x, (slot, x) ∈ seen ∧ x.sessionID = id

section
variable {seen : List (Slot × Wanted)} {c : Claims}

lemma Claims.reports_fail {p id} : (c.fail p).reports slot id ↔ c.reports slot id ∨ p.names slot id := by
  simp [Claims.reports, Claims.fail, or_and_right, exists_or]

lemma Shows.maps (h : Shows seen c) : (∀ slot', (c.claim slot x).desired.lookup slot' =
      ((board Wanted.sessionID seen).claim Wanted.sessionID (slot, x)).holder slot') ∧
    ∀ slot', ((c.claim slot x).clashed slot').isSome =
      ((board Wanted.sessionID seen).claim Wanted.sessionID (slot, x)).contested slot' := by
  have insert : ∀ slot', (c.desired.insert slot x).lookup slot' =
      Function.update (board Wanted.sessionID seen).holder slot (some x) slot' := by
    intro slot'
    rcases eq_or_ne slot' slot with rfl | hne
    · simp
    · simp [AList.lookup_insert_ne hne, Function.update_of_ne hne, h.desired]
  unfold Claims.claim Board.claim
  rw [← h.clashed slot, ← h.desired slot]
  split
  · exact ⟨h.desired, h.clashed⟩
  cases hholder : c.desired.lookup slot with
  | none => exact ⟨insert, h.clashed⟩
  | some other =>
    by_cases hid : other.s.sessionID = x.s.sessionID
    · simp only [hid, ne_eq, not_true_eq_false, if_false, Option.any_some, Wanted.sessionID, decide_false,
        Bool.false_eq_true]
      exact ⟨insert, h.clashed⟩
    simp only [ne_eq, hid, not_false_eq_true, if_true, Option.any_some, Wanted.sessionID, decide_true]
    refine ⟨fun slot' => ?_, fun slot' => ?_⟩
    · rcases eq_or_ne slot' slot with rfl | hne
      · simp
      · simpa [Claims.fail, AList.lookup_erase_ne hne, Function.update_of_ne hne] using h.desired slot'
    · rcases eq_or_ne slot' slot with rfl | hne
      · simp
      · simpa [Claims.fail, Function.update_of_ne hne] using h.clashed slot'

lemma Shows.named (h : Shows seen c) (id : Bytes) : (c.claim slot x).reports slot id ↔
    Disputed Wanted.sessionID (seen ++ [(slot, x)]) slot ∧ ∃ y, (slot, y) ∈ seen ++ [(slot, x)] ∧ y.sessionID = id := by
  have settled := board_settled Wanted.sessionID seen slot
  have settled' := board_settled Wanted.sessionID (seen ++ [(slot, x)]) slot
  have sub : seen ⊆ seen ++ [(slot, x)] := List.subset_append_left _ _
  rw [board_concat] at settled'
  unfold Claims.claim
  split
  next hc =>
    have hd : Disputed Wanted.sessionID seen slot := settled.contested.mp (h.clashed slot ▸ hc)
    rw [Claims.reports_fail, h.reports]
    simp only [hd, hd.mono sub, true_and, Problem.names, List.mem_append, List.mem_singleton, Prod.mk.injEq]
    constructor
    · rintro (⟨y, hy, rfl⟩ | rfl)
      · exact ⟨y, .inl hy, rfl⟩
      · exact ⟨x, .inr rfl, rfl⟩
    · rintro ⟨y, hy | rfl, rfl⟩
      · exact .inl ⟨y, hy, rfl⟩
      · exact .inr rfl
  next hc =>
    have hnot : ¬ Disputed Wanted.sessionID seen slot := fun hd =>
      hc ((h.clashed slot).trans (settled.contested.mpr hd))
    have quiet : ∀ c' : Claims, c'.problems = c.problems → ¬ c'.reports slot id := by
      intro c' hc' hr
      have : c.reports slot id := by simpa [Claims.reports, hc'] using hr
      exact hnot ((h.reports slot id).mp this).1
    have calm : ¬ Disputed Wanted.sessionID (seen ++ [(slot, x)]) slot → ∀ c' : Claims, c'.problems = c.problems →
        (c'.reports slot id ↔ Disputed Wanted.sessionID (seen ++ [(slot, x)]) slot ∧
          ∃ y, (slot, y) ∈ seen ++ [(slot, x)] ∧ y.sessionID = id) :=
      fun hn c' hc' => ⟨fun hr => absurd hr (quiet c' hc'), fun hr => absurd hr.1 hn⟩
    have uncontested : (board Wanted.sessionID seen).contested slot = false := by
      simpa [h.clashed slot] using hc
    cases hholder : c.desired.lookup slot with
    | none =>
      refine calm (fun hd => ?_) _ rfl
      have := settled'.contested.mpr hd
      simp [Board.claim, uncontested, ← h.desired slot, hholder] at this
    | some other =>
      have hother := settled.holder other (by rw [← h.desired slot, hholder])
      dsimp only
      split
      · rename_i hid
        have hd : Disputed Wanted.sessionID (seen ++ [(slot, x)]) slot := ⟨other, x, sub hother, by simp, hid⟩
        have agree : ∀ y, (slot, y) ∈ seen → y.sessionID = other.sessionID := by
          intro y hy
          by_contra hne
          exact hnot ⟨y, other, hy, hother, hne⟩
        have named : ∀ c' : Claims, c'.problems = (c.fail (.conflict slot.device other.s.sessionID x.s.sessionID
            slot.minor)).problems → (c'.reports slot id ↔ id = other.sessionID ∨ id = x.sessionID) := by
          intro c' hc'
          have : c'.reports slot id ↔ (c.fail (.conflict slot.device other.s.sessionID x.s.sessionID
              slot.minor)).reports slot id := by simp [Claims.reports, hc']
          rw [this, Claims.reports_fail]
          simp [quiet c rfl, Problem.names, Wanted.sessionID]
        refine (named _ rfl).trans ?_
        simp only [hd, true_and, List.mem_append, List.mem_singleton, Prod.mk.injEq]
        constructor
        · rintro (rfl | rfl)
          · exact ⟨other, .inl hother, rfl⟩
          · exact ⟨x, .inr rfl, rfl⟩
        · rintro ⟨y, hy | rfl, rfl⟩
          · exact .inl (agree y hy)
          · exact .inr rfl
      · rename_i hid
        refine calm (fun hd => ?_) _ rfl
        have := settled'.contested.mpr hd
        simp [Board.claim, uncontested, ← h.desired slot, hholder, Wanted.sessionID, not_not.mp hid] at this

lemma Claims.reports_elsewhere {slot' id} (hne : slot' ≠ slot) : (c.claim slot x).reports slot' id ↔ c.reports slot' id := by
  have other : ∀ (one two : Bytes), ¬ (Problem.contested slot.device one slot.minor).names slot' id ∧
      ¬ (Problem.conflict slot.device one two slot.minor).names slot' id := by
    simp [Problem.names, hne]
  unfold Claims.claim
  split
  · simp [Claims.reports_fail, (other _ []).1]
  cases c.desired.lookup slot with
  | none => exact Iff.rfl
  | some prev =>
    dsimp only
    split
    · exact Claims.reports_fail.trans (or_iff_left (other prev.s.sessionID x.s.sessionID).2)
    · exact Iff.rfl

lemma Shows.claim (h : Shows seen c) : Shows (seen ++ [(slot, x)]) (c.claim slot x) where
  desired slot' := by rw [board_concat]; exact h.maps.1 slot'
  clashed slot' := by rw [board_concat]; exact h.maps.2 slot'
  reports slot' id := by
    rcases eq_or_ne slot' slot with rfl | hne
    · exact h.named id
    · have elsewhere : ∀ y, (slot', y) ∈ seen ++ [(slot, x)] ↔ (slot', y) ∈ seen := fun _ => mem_elsewhere hne
      rw [Claims.reports_elsewhere hne, h.reports, disputed_elsewhere hne]
      simp only [elsewhere]

lemma claimsOf_shows (ctx : ClaimCtx) (sessions : List Session) : Shows (ctx.claims sessions) (claimsOf ctx sessions) := by
  induction sessions using List.reverseRecOn with
  | nil => exact ⟨fun _ => rfl, fun _ => rfl, by simp [claimsOf, Claims.reports, ClaimCtx.claims]⟩
  | append_singleton sessions s ih =>
    have hfold : claimsOf ctx (sessions ++ [s]) = (claimsOf ctx sessions).add ctx s := by simp [claimsOf]
    have hclaims : ctx.claims (sessions ++ [s]) = ctx.claims sessions ++ (ctx.claimed s).toList := by
      simp only [ClaimCtx.claims, List.filterMap_append]
      cases h : ctx.claimed s <;> simp [h]
    rw [hfold, hclaims]
    cases h : ctx.claimed s with
    | none =>
      obtain ⟨hdesired, hclashed, hreports⟩ := (claimsOf ctx sessions).add_unclaimed h
      simp only [Option.toList_none, List.append_nil]
      exact ⟨fun slot => by rw [hdesired, ih.desired], fun slot => by rw [hclashed, ih.clashed],
        fun slot id => (hreports slot id).trans (ih.reports slot id)⟩
    | some p =>
      obtain ⟨slot, x⟩ := p
      rw [Claims.add_claimed _ h]
      exact ih.claim

end

lemma desired_claimed (h : (claimsOf ctx sessions).desired.lookup slot = some x) : (slot, x) ∈ ctx.claims sessions := by
  rw [(claimsOf_shows ctx sessions).desired] at h
  exact (board_settled _ _ slot).holder x h

abbrev Clash (ctx : ClaimCtx) (sessions : List Session) (slot : Slot) : Prop :=
  Disputed Wanted.sessionID (ctx.claims sessions) slot

/-- Entries of one session for one class are one entry. -/
def Consistent (ctx : ClaimCtx) (sessions : List Session) : Prop :=
  ∀ p ∈ ctx.claims sessions, ∀ q ∈ ctx.claims sessions, p.1 = q.1 → p.2.sessionID = q.2.sessionID → p.2 = q.2

section
variable {sessions' : List Session}

lemma desired_iff (consistent : Consistent ctx sessions) :
    (claimsOf ctx sessions).desired.lookup slot = some x ↔ (slot, x) ∈ ctx.claims sessions ∧ ¬ Clash ctx sessions slot := by
  have agree : ∀ u v, (slot, u) ∈ ctx.claims sessions → (slot, v) ∈ ctx.claims sessions → u.sessionID = v.sessionID →
      u = v := fun u v hu hv => consistent _ hu _ hv rfl
  rw [(claimsOf_shows ctx sessions).desired, holder_iff agree]
  refine and_congr_right fun hx => ⟨fun only => ?_, fun alone u hu => ?_⟩
  · rintro ⟨u, v, hu, hv, hne⟩
    exact hne (by rw [only u hu, only v hv])
  · refine agree u x hu hx ?_
    by_contra hne
    exact alone ⟨u, x, hu, hx, hne⟩

lemma clashed_iff : ((claimsOf ctx sessions).clashed slot).isSome ↔ Clash ctx sessions slot := by
  rw [(claimsOf_shows ctx sessions).clashed]
  exact (board_settled _ _ slot).contested

lemma mem_claims_perm (perm : sessions.Perm sessions') :
    (slot, x) ∈ ctx.claims sessions' ↔ (slot, x) ∈ ctx.claims sessions := (perm.filterMap _).mem_iff.symm

lemma clash_perm (perm : sessions.Perm sessions') : Clash ctx sessions' slot ↔ Clash ctx sessions slot := by
  simp only [Clash, Disputed, mem_claims_perm perm]

lemma Consistent.perm (h : Consistent ctx sessions) (perm : sessions.Perm sessions') : Consistent ctx sessions' :=
  fun _ hp _ hq => h _ ((mem_claims_perm perm).mp hp) _ ((mem_claims_perm perm).mp hq)

end

/-- Whoever is alone on a class is desired there; of two or more sessions on a class, or at an address,
none is; and what is desired, withheld and reported does not depend on the order of the plan. -/
theorem clash_denies_everyone (ctx : ClaimCtx) (sessions sessions' : List Session) (perm : sessions.Perm sessions')
    (consistent : Consistent ctx sessions) :
    (∀ slot slot' x y, (slot, x) ∈ ctx.claims sessions → (slot', y) ∈ ctx.claims sessions →
      x.s.sessionID ≠ y.s.sessionID → slot = slot' ∨ x.addr = y.addr →
      (claimsOf ctx sessions).desired.lookup slot = none ∧ ((claimsOf ctx sessions).clashed slot).isSome) ∧
    (∀ slot x, (claimsOf ctx sessions).desired.lookup slot = some x ↔
      (slot, x) ∈ ctx.claims sessions ∧ ¬ Clash ctx sessions slot) ∧
    (∀ slot id, (claimsOf ctx sessions).reports slot id ↔
      Clash ctx sessions slot ∧ ∃ x, (slot, x) ∈ ctx.claims sessions ∧ x.s.sessionID = id) ∧
    (∀ slot, (claimsOf ctx sessions').desired.lookup slot = (claimsOf ctx sessions).desired.lookup slot) ∧
    (∀ slot, (claimsOf ctx sessions').clashed slot = (claimsOf ctx sessions).clashed slot) ∧
    (∀ slot id, (claimsOf ctx sessions').reports slot id ↔ (claimsOf ctx sessions).reports slot id) := by
  refine ⟨fun slot slot' x y hx hy hne hsame => ?_, fun slot x => desired_iff consistent,
    (claimsOf_shows ctx sessions).reports, fun slot => ?_, fun slot => ?_, fun slot id => ?_⟩
  · have hslot : slot = slot' := hsame.elim id fun ha => (claims_spec hx).2.slot_of_addr (claims_spec hy).2 ha
    have clash : Clash ctx sessions slot := ⟨x, y, hx, hslot ▸ hy, hne⟩
    refine ⟨Option.eq_none_iff_forall_ne_some.mpr fun z hz => ?_, clashed_iff.mpr clash⟩
    exact ((desired_iff consistent).mp hz).2 clash
  · refine Option.ext fun x => ?_
    rw [desired_iff consistent, desired_iff (consistent.perm perm), mem_claims_perm perm, clash_perm perm]
  · have : ((claimsOf ctx sessions').clashed slot).isSome = ((claimsOf ctx sessions).clashed slot).isSome := by
      rw [Bool.eq_iff_iff, clashed_iff, clashed_iff, clash_perm perm]
    cases h : (claimsOf ctx sessions).clashed slot <;> cases h' : (claimsOf ctx sessions').clashed slot <;>
      simp_all
  · rw [(claimsOf_shows ctx sessions').reports, (claimsOf_shows ctx sessions).reports]
    exact and_congr (clash_perm perm) (by simp only [mem_claims_perm perm])

/-- One bridge with a small subnet, and addresses read off their text. -/
def oneBridge : ClaimCtx where
  parseIP text := some (.v4 (0x0a000000#32 + BitVec.ofNat 32 text.length))
  nets _ := [⟨0x0a000000#32, 24⟩]
  retired _ := false
  bridges := ["br-lan".toList]
  shared := []

/-- An entitled entry on that bridge. -/
def planEntry (id ip : String) (down : Int) : Session :=
  { sessionID := id.toList, ip := ip.toList, bridge := "br-lan".toList, downKbps := down, upKbps := 1000
    entitled := true }

/-- Three sessions at one address and one elsewhere. -/
theorem clash_denies_everyone_of_three :
    (claimsOf oneBridge [planEntry "d" "...." 9, planEntry "c" "." 9, planEntry "a" "." 9, planEntry "b" "." 9]).desired.lookup
      ⟨"br-lan".toList, 0x1001⟩ = none ∧
    (claimsOf oneBridge [planEntry "d" "...." 9, planEntry "c" "." 9, planEntry "a" "." 9, planEntry "b" "." 9]).desired.lookup
      ⟨"br-lan".toList, 0x1004⟩ = some ⟨planEntry "d" "...." 9, ⟨"br-lan".toList, .v4 0x0a000004#32⟩⟩ := by
  have h := clash_denies_everyone oneBridge [planEntry "a" "." 9, planEntry "b" "." 9, planEntry "c" "." 9, planEntry "d" "...." 9]
    [planEntry "d" "...." 9, planEntry "c" "." 9, planEntry "a" "." 9, planEntry "b" "." 9] (by decide) (by unfold Consistent; decide)
  rw [h.2.2.2.1, h.2.2.2.1]
  decide

/-- Two entries of one session for one class, at different rates: the later one is taken. -/
theorem desired_depends_on_order :
    [planEntry "a" "." 1, planEntry "a" "." 2].Perm [planEntry "a" "." 2, planEntry "a" "." 1] ∧
    (claimsOf oneBridge [planEntry "a" "." 1, planEntry "a" "." 2]).desired.lookup ⟨"br-lan".toList, 0x1001⟩ ≠
      (claimsOf oneBridge [planEntry "a" "." 2, planEntry "a" "." 1]).desired.lookup ⟨"br-lan".toList, 0x1001⟩ := by
  decide

end StayConnect.Netd
