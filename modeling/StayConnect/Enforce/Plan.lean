import Mathlib.Data.List.Dedup
import Mathlib.Data.List.Induction
import Mathlib.Data.List.Perm.Basic
import Mathlib.Data.List.Sigma
import Mathlib.Logic.Function.Basic
import Mathlib.Tactic.Lemma

/-!
# The plan of a site

acctd derives the plan from the sessions it reads, in the order (started, id): a device that appears at a newer address leaves its
older ones (`retireMovedDevices`), and of the sessions that claim one address the newest owns it (`resolveAddressOwnership`). Both
walk the list with the last index seen for a key (`newest_key`, `newest_last`) and keep a session or tear it down (`sift`).
-/

namespace StayConnect.Enforce

structure SessionShape where
  sessionID : String
  deviceID : String
  /-- The text of an address, empty when the session has none. -/
  ip : String
  bridge : String
  downKbps : Int
  upKbps : Int
  endReason : String

structure Plan where
  shape : List SessionShape
  tear : List SessionShape

def endReasonDeviceMoved : String := "SUPERSEDED_ON_DEVICE_MOVE"

def endReasonSupersededOnAddress : String := "SUPERSEDED_ON_ADDRESS"

namespace SessionShape

/-- The key `bridge|ip`; an address holds no bar. -/
def addr (sh : SessionShape) : String × String := (sh.bridge, sh.ip)

def torn (reason : String) (sh : SessionShape) : SessionShape := { sh with downKbps := 0, upKbps := 0, endReason := reason }

/-- A session that moves with its device. -/
def device? (sh : SessionShape) : Option String := if sh.deviceID = "" ∨ sh.ip = "" then none else some sh.deviceID

def addr? (sh : SessionShape) : Option (String × String) := if sh.ip = "" then none else some sh.addr

end SessionShape

open SessionShape

section
variable {κ : Type} [DecidableEq κ]

/-- The index of the last session seen for each key. -/
def newest (key : SessionShape → Option κ) (l : List SessionShape) : κ → Option Nat :=
  l.zipIdx.foldl (fun seen x => match key x.1 with
    | none => seen
    | some k => Function.update seen k (some x.2)) fun _ => none

/-- Sessions are kept or torn down, in order. -/
def Plan.sift (p : Plan) (reason : String) (keeps : SessionShape → Nat → Bool) : Plan where
  shape := (p.shape.zipIdx.filter fun x => keeps x.1 x.2).map (·.1)
  tear := p.tear ++ (p.shape.zipIdx.filter fun x => !keeps x.1 x.2).map (·.1.torn reason)

end

def retireMovedDevices (p : Plan) : Plan :=
  p.sift endReasonDeviceMoved fun sh i =>
    match sh.device? with
    | none => true
    | some d =>
      match newest device? p.shape d with
      | none => true
      | some latest => latest = i || p.shape[latest]?.any fun x => x.ip = sh.ip && x.bridge = sh.bridge

def resolveAddressOwnership (p : Plan) : Plan :=
  if (p.shape.filterMap addr?).dedup.length = (p.shape.filterMap addr?).length then p
  else p.sift endReasonSupersededOnAddress fun sh i => sh.ip = "" || newest addr? p.shape sh.addr = some i

/-- The last step of `PlanForSite`. -/
def coherent (p : Plan) : Plan := resolveAddressOwnership (retireMovedDevices p)

section
variable {κ : Type} [DecidableEq κ] {key : SessionShape → Option κ} {l : List SessionShape} {k : κ} {i : Nat}

lemma newest_snoc (x : SessionShape) : newest key (l ++ [x]) k = if key x = some k then some l.length else newest key l k := by
  unfold newest
  rw [List.zipIdx_append, List.foldl_append]
  cases hx : key x with
  | none => simp [hx]
  | some k' =>
    simp only [List.zipIdx_cons, List.zipIdx_nil, List.foldl_cons, List.foldl_nil, hx, Nat.zero_add, Option.some.injEq]
    rcases eq_or_ne k' k with rfl | ne
    · simp
    · simp [ne, Function.update_of_ne ne.symm]

lemma newest_key (h : newest key l k = some i) : ∃ x, l[i]? = some x ∧ key x = some k := by
  induction l using List.reverseRecOn generalizing i with
  | nil => cases h
  | append_singleton l x ih =>
    rw [newest_snoc] at h
    split at h
    next hx =>
      cases h
      exact ⟨x, List.getElem?_concat_length, hx⟩
    · obtain ⟨y, hy, own⟩ := ih h
      exact ⟨y, List.getElem?_append_left (List.getElem?_eq_some_iff.mp hy).1 ▸ hy, own⟩

lemma newest_last {x} (hx : l[i]? = some x) (own : key x = some k) : ∃ j, newest key l k = some j ∧ i ≤ j := by
  induction l using List.reverseRecOn with
  | nil => cases hx
  | append_singleton l y ih =>
    have le : i ≤ l.length := by simpa [Nat.lt_succ_iff] using (List.getElem?_eq_some_iff.mp hx).1
    rw [newest_snoc]
    split
    · exact ⟨_, rfl, le⟩
    next other =>
      refine ih ?_
      rcases Nat.lt_or_eq_of_le le with lt | rfl
      · rwa [List.getElem?_append_left lt] at hx
      · rw [List.getElem?_concat_length] at hx
        cases hx
        exact absurd own other

end

section
variable {p : Plan} {reason : String} {keeps : SessionShape → Nat → Bool}

lemma mem_sift {sh} : sh ∈ (p.sift reason keeps).shape ↔ ∃ i, p.shape[i]? = some sh ∧ keeps sh i = true := by
  simp [Plan.sift, List.mem_zipIdx_iff_getElem?]

/-- Every session is kept as it is or torn down with the reason. -/
def Tears (reason : String) (p q : Plan) : Prop :=
  ∃ gone, (q.shape ++ gone).Perm p.shape ∧ q.tear = p.tear ++ gone.map (torn reason)

lemma sift_tears : Tears reason p (p.sift reason keeps) := by
  refine ⟨(p.shape.zipIdx.filter fun x => !keeps x.1 x.2).map (·.1), ?_, by simp [Plan.sift]⟩
  have both := (List.filter_append_perm (fun x => keeps x.1 x.2) p.shape.zipIdx).map (·.1)
  rwa [List.map_append, List.zipIdx_map_fst] at both

lemma sift_all (h : ∀ i sh, p.shape[i]? = some sh → keeps sh i = true) : p.sift reason keeps = p := by
  have all : ∀ x ∈ p.shape.zipIdx, keeps x.1 x.2 = true := fun x hx => h _ _ (List.mem_zipIdx_iff_getElem?.mp hx)
  have none : ∀ x ∈ p.shape.zipIdx, ¬ (!keeps x.1 x.2) = true := fun x hx => by simp [all x hx]
  unfold Plan.sift
  rw [List.filter_eq_self.mpr all, List.filter_eq_nil_iff.mpr none, List.zipIdx_map_fst]
  simp

lemma sift_sublist : (p.sift reason keeps).shape.Sublist p.shape := by
  have sub := (List.filter_sublist (p := fun x => keeps x.1 x.2) (l := p.shape.zipIdx)).map (·.1)
  rwa [List.zipIdx_map_fst] at sub

end

variable {p : Plan}

lemma addr?_eq_some {sh : SessionShape} {k : String × String} : sh.addr? = some k ↔ sh.ip ≠ "" ∧ sh.addr = k := by
  unfold addr?
  split <;> simp [*]

/-- Of every device, the sessions with an address have one address. -/
def OneAddress (l : List SessionShape) : Prop :=
  ∀ a ∈ l, ∀ b ∈ l, ∀ d, a.device? = some d → b.device? = some d → a.addr = b.addr

lemma retire_oneAddress (p : Plan) : OneAddress (retireMovedDevices p).shape := by
  -- a session that is kept is at the address of the newest one of its device
  have newestAt : ∀ a ∈ (retireMovedDevices p).shape, ∀ d, a.device? = some d →
      ∃ j x, newest device? p.shape d = some j ∧ p.shape[j]? = some x ∧ x.addr = a.addr := by
    intro a ha d hd
    obtain ⟨i, hi, kept⟩ := mem_sift.mp ha
    obtain ⟨j, latest, -⟩ := newest_last hi hd
    obtain ⟨x, hx, -⟩ := newest_key latest
    simp only [hd, latest, hx, Option.any_some, Bool.or_eq_true, Bool.and_eq_true, decide_eq_true_eq] at kept
    refine ⟨j, x, latest, hx, ?_⟩
    rcases kept with rfl | ⟨ip, bridge⟩
    · rw [hi] at hx
      cases hx
      rfl
    · exact Prod.ext bridge ip
  intro a ha b hb d hd hd'
  obtain ⟨j, x, latest, hx, at'⟩ := newestAt a ha d hd
  obtain ⟨j', x', latest', hx', at''⟩ := newestAt b hb d hd'
  cases latest.symm.trans latest'
  cases hx.symm.trans hx'
  exact at'.symm.trans at''

lemma retire_eq_self (h : OneAddress p.shape) : retireMovedDevices p = p := by
  refine sift_all fun i sh hi => ?_
  split
  · rfl
  next d hd =>
    obtain ⟨j, latest, -⟩ := newest_last hi hd
    obtain ⟨x, hx, own⟩ := newest_key latest
    have same := h x (List.mem_of_getElem? hx) sh (List.mem_of_getElem? hi) d own hd
    rw [latest]
    simp [hx, show x.ip = sh.ip from congrArg Prod.snd same, show x.bridge = sh.bridge from congrArg Prod.fst same]

lemma resolve_eq (p : Plan) : resolveAddressOwnership p =
    p.sift endReasonSupersededOnAddress fun sh i => sh.ip = "" || newest addr? p.shape sh.addr = some i := by
  unfold resolveAddressOwnership
  split
  next short =>
    have nodup : (p.shape.filterMap addr?).Nodup :=
      List.dedup_eq_self.mp ((List.dedup_sublist _).eq_of_length short)
    rw [List.Nodup, List.pairwise_filterMap, List.pairwise_iff_getElem] at nodup
    refine (sift_all fun i sh hi => ?_).symm
    by_cases none : sh.ip = ""
    · simp [none]
    obtain ⟨j, latest, le⟩ := newest_last hi (addr?_eq_some.mpr ⟨none, rfl⟩)
    obtain ⟨x, hx, own⟩ := newest_key latest
    obtain ⟨hi', rfl⟩ := List.getElem?_eq_some_iff.mp hi
    obtain ⟨hj, rfl⟩ := List.getElem?_eq_some_iff.mp hx
    rcases Nat.lt_or_eq_of_le le with lt | rfl
    · exact absurd rfl (nodup i j hi' hj lt _ (addr?_eq_some.mpr ⟨none, rfl⟩) _ own)
    · simp [latest]
  · rfl

lemma resolve_nodup (p : Plan) : ((resolveAddressOwnership p).shape.filterMap addr?).Nodup := by
  rw [resolve_eq, List.Nodup, List.pairwise_filterMap]
  change (List.map _ _).Pairwise _
  rw [List.pairwise_map]
  refine ((List.pairwise_map.mp (List.nodup_zipIdx_map_snd p.shape)).filter _).imp_of_mem fun hx hy ne k hk k' hk' same => ne ?_
  obtain ⟨addressed, rfl⟩ := addr?_eq_some.mp hk
  obtain ⟨addressed', rfl⟩ := addr?_eq_some.mp hk'
  have x := (List.mem_filter.mp hx).2
  have y := (List.mem_filter.mp hy).2
  simp only [addressed, addressed', same, decide_false, Bool.false_or, decide_eq_true_eq] at x y
  exact Option.some.inj (x.symm.trans y)

/-- For every plan: each session is kept as it is or torn down once, with zero rates and the reason; no two sessions kept have one
address, and no device two; of the claimants of an address that the device rule left, the last in the order of the list is kept;
and a plan that is coherent stays as it is. -/
theorem plan_coherent (p : Plan) :
    (Tears endReasonDeviceMoved p (retireMovedDevices p) ∧
      Tears endReasonSupersededOnAddress (retireMovedDevices p) (coherent p)) ∧
    ((coherent p).shape.filterMap addr?).Nodup ∧
    OneAddress (coherent p).shape ∧
    (∀ before : SessionShape → SessionShape → Prop, p.shape.Pairwise before → ∀ a ∈ (retireMovedDevices p).shape, a.ip ≠ "" →
      ∃ b ∈ (coherent p).shape, b.addr = a.addr ∧ (b = a ∨ before a b)) ∧
    coherent (coherent p) = coherent p := by
  have sifted := resolve_eq (retireMovedDevices p)
  have sub : (coherent p).shape.Sublist (retireMovedDevices p).shape := by
    rw [coherent, sifted]
    exact sift_sublist
  have one : OneAddress (coherent p).shape :=
    fun a ha b hb => retire_oneAddress p a (sub.subset ha) b (sub.subset hb)
  refine ⟨⟨sift_tears, ?_⟩, resolve_nodup _, one, fun before order a ha addressed => ?_, ?_⟩
  · rw [coherent, sifted]
    exact sift_tears
  · obtain ⟨i, hi⟩ := List.getElem?_of_mem ha
    obtain ⟨j, latest, le⟩ := newest_last hi (addr?_eq_some.mpr ⟨addressed, rfl⟩)
    obtain ⟨b, hj, own⟩ := newest_key latest
    obtain ⟨-, same⟩ := addr?_eq_some.mp own
    refine ⟨b, ?_, same, ?_⟩
    · rw [coherent, sifted]
      exact mem_sift.mpr ⟨j, hj, by simp [same, latest]⟩
    · rcases Nat.lt_or_eq_of_le le with lt | rfl
      · obtain ⟨hi', rfl⟩ := List.getElem?_eq_some_iff.mp hi
        obtain ⟨hj', rfl⟩ := List.getElem?_eq_some_iff.mp hj
        exact .inr (List.pairwise_iff_getElem.mp (order.sublist sift_sublist) i j hi' hj' lt)
      · exact .inl (Option.some.inj (hj.symm.trans hi))
  · rw [coherent, retire_eq_self one]
    exact if_pos (congrArg _ (List.dedup_eq_self.mpr (resolve_nodup _)))

end StayConnect.Enforce
