import StayConnect.Pms.Stay
import Mathlib.Data.List.Induction

/-!
# Live admission

`insertRowTx` for a LIVE row: the partial unique index `se_live_identity` makes a repeated identity a
duplicate, which the worker ignores. The inbox therefore holds the first occurrence of every record, and
the question is what the later occurrences would have done. `admission_exact_iff` answers it: the stay's
status and room follow the received stream exactly when no repeated record would have changed them.
-/

namespace StayConnect.Pms
open StayConnect.Framing

variable {δ : Type} [DecidableEq δ]

/-- `AdmitLiveEvent`: `ON CONFLICT … DO NOTHING` on the event identity. -/
def admitLive (inbox : List (Event δ)) (ev : Event δ) : List (Event δ) :=
  if inbox.any fun e => e.identity == ev.identity then inbox else inbox ++ [ev]

/-- The domain events of a stream of record bodies; a refused body yields none. -/
def received (A : Adapter δ) (T : TextOps) (bodies : List Bytes) : List (Event δ) :=
  bodies.filterMap fun b =>
    match A.toEvent b with
    | .ok ev => if ev.validate T then some ev else none
    | .error _ => none

/-- The inbox a stream of record bodies leaves on a synced link. -/
def admitted (A : Adapter δ) (T : TextOps) (bodies : List Bytes) : List (Event δ) :=
  (received A T bodies).foldl admitLive []

/-- A well-formed live record of the reservation. -/
def WellFormed (A : Adapter δ) (T : TextOps) (reservation body : Bytes) : Prop :=
  ∃ ev, A.toEvent body = .ok ev ∧ ev.validate T = true ∧ ev.reservation = reservation

/-- The status and room after applying a stream of events to the stay. -/
def statusRoomAfter (T : TextOps) (cur : Option Stay) (evs : List (Event δ)) :
    Option (StayStatus × Bytes) :=
  (applyAll T cur evs).map Stay.statusRoom

lemma mem_foldl_admitLive {evs inbox : List (Event δ)} {e : Event δ} (h : e ∈ evs.foldl admitLive inbox) : e ∈ inbox ∨ e ∈ evs := by
  induction evs generalizing inbox with
  | nil => exact .inl h
  | cons ev evs ih =>
    rcases ih h with h | h
    · unfold admitLive at h
      split at h
      · exact .inl h
      · rcases List.mem_append.mp h with h | h
        · exact .inl h
        · exact .inr (List.mem_cons.mpr (.inl (List.mem_singleton.mp h)))
    · exact .inr (List.mem_cons_of_mem _ h)

lemma identity_mem_foldl_admitLive {evs inbox : List (Event δ)} {e : Event δ}
    (h : e ∈ inbox ∨ e ∈ evs) : ∃ e' ∈ evs.foldl admitLive inbox, e'.identity = e.identity := by
  induction evs generalizing inbox e with
  | nil => exact ⟨e, h.resolve_right (List.not_mem_nil), rfl⟩
  | cons ev evs ih =>
    simp only [List.foldl_cons]
    rcases h with h | h
    · refine ih (.inl ?_)
      unfold admitLive
      split
      · exact h
      · exact List.mem_append_left _ h
    · rcases List.mem_cons.mp h with rfl | h
      · unfold admitLive
        split
        next dup =>
          obtain ⟨e0, h0, same⟩ := List.any_eq_true.mp dup
          obtain ⟨e', h', same'⟩ := ih (.inl h0)
          exact ⟨e', h', same'.trans (beq_iff_eq.mp same)⟩
        · exact ih (.inl (List.mem_append_right _ (List.mem_singleton.mpr rfl)))
      · exact ih (.inr h)

section Streams

variable (A : Adapter δ) (T : TextOps) (reservation : Bytes)

omit [DecidableEq δ] in
lemma received_concat {p b ev} (hb : A.toEvent b = .ok ev)
    (valid : ev.validate T = true) : received A T (p ++ [b]) = received A T p ++ [ev] := by
  simp [received, hb, valid]

omit [DecidableEq δ] in
lemma mem_received {p e} (h : e ∈ received A T p) : ∃ b ∈ p, A.toEvent b = .ok e ∧ e.validate T = true := by
  obtain ⟨b, hb, he⟩ := List.mem_filterMap.mp h
  refine ⟨b, hb, ?_⟩
  split at he
  next ev hev =>
    split at he
    · rename_i valid
      cases he
      exact ⟨hev, valid⟩
    · cases he
  · cases he

/-- A record whose bytes came before is a duplicate; any other record is admitted. -/
lemma admitted_concat (inj : ∀ k, Function.Injective (A.hmac k)) {p : List Bytes} {b : Bytes}
    {ev : Event δ} (hb : A.toEvent b = .ok ev) (valid : ev.validate T = true) :
    admitted A T (p ++ [b]) = if b ∈ p then admitted A T p else admitted A T p ++ [ev] := by
  have step : admitted A T (p ++ [b]) = admitLive (admitted A T p) ev := by
    rw [admitted, received_concat A T hb valid, List.foldl_append]
    rfl
  have some : ev.identity.isSome = true := by
    simp only [Event.validate, Bool.and_eq_true] at valid
    exact valid.1.1.2
  rw [step, admitLive]
  by_cases hp : b ∈ p
  · have hev : ev ∈ received A T p :=
      List.mem_filterMap.mpr ⟨b, hp, by simp [hb, valid]⟩
    obtain ⟨e', h', same⟩ : ∃ e' ∈ admitted A T p, e'.identity = ev.identity :=
      identity_mem_foldl_admitLive (.inr hev)
    rw [if_pos hp, if_pos]
    exact List.any_eq_true.mpr ⟨e', h', by simp [same]⟩
  · rw [if_neg hp, if_neg]
    intro dup
    obtain ⟨e', h', same⟩ := List.any_eq_true.mp dup
    obtain ⟨c, hc, hce, -⟩ :=
      mem_received A T ((mem_foldl_admitLive h').resolve_left List.not_mem_nil)
    have : b = c := A.body_of_identity inj hb hce some (beq_iff_eq.mp same).symm
    exact hp (this ▸ hc)

/-- The stay follows the received stream, at every point of it, exactly when every record whose bytes came
before would leave the stay's status and room as they are. -/
theorem admission_exact_iff (inj : ∀ k, Function.Injective (A.hmac k)) (stay : Option Stay)
    {bodies : List Bytes} (wf : ∀ b ∈ bodies, WellFormed A T reservation b) :
    (∀ p, p <+: bodies →
      statusRoomAfter T stay (admitted A T p) = statusRoomAfter T stay (received A T p)) ↔
    ∀ p b q, bodies = p ++ b :: q → b ∈ p →
      statusRoomAfter T stay (received A T (p ++ [b])) = statusRoomAfter T stay (received A T p) := by
  constructor
  · intro exact_ p b q e hp
    obtain ⟨ev, hb, valid, -⟩ := wf b (by simp [e])
    have here := exact_ p ⟨b :: q, e.symm⟩
    have next := exact_ (p ++ [b]) ⟨q, by simp [e]⟩
    rw [admitted_concat A T inj hb valid, if_pos hp] at next
    exact next.symm.trans here
  · intro idle p hp
    induction p using List.reverseRecOn with
    | nil => rfl
    | append_singleton p b ih =>
      obtain ⟨q, e⟩ := hp
      have e' : bodies = p ++ b :: q := by simp [← e]
      obtain ⟨ev, hb, valid, -⟩ := wf b (by simp [e'])
      have before := ih ⟨b :: q, e'.symm⟩
      rw [admitted_concat A T inj hb valid]
      split
      · -- a duplicate: dropped here, without effect there
        rename_i dup
        rw [before, idle p b q e' dup]
      · rw [received_concat A T hb valid, statusRoomAfter, statusRoomAfter, applyAll_concat,
          applyAll_concat]
        exact processEvent_statusRoom T ev before

end Streams

/-- `namenorm.Room` and `TrimSpace` on ASCII text. -/
def asciiText : TextOps where
  room s := ((s.dropWhile (· == ' ')).reverse.dropWhile (· == ' ')).reverse.map Char.toUpper
  blank s := s.all (· == ' ')

/-- An interface whose digest is the message itself. -/
def plainAdapter : Adapter Bytes where
  interfaceID := "if-1".toList
  profile := "protel-fias/v1".toList
  normalizationVersion := 1
  identKey := "k".toList
  identKeyVersion := 1
  hmac k m := k ++ m

/-- A check-in into a room, with the fields the link record requests. -/
def checkIn (room : String) : Bytes :=
  "GI|RN".toList ++ room.toList ++ "|G#4711|GNDOE|GFJANE|GA261101|GD261105|A0|A1|".toList

lemma checkIn_wellFormed {room} (h : room = "101" ∨ room = "102") : WellFormed plainAdapter asciiText "4711".toList (checkIn room) := by
  rcases h with rfl | rfl
  · exact ⟨_, rfl, by decide, rfl⟩
  · exact ⟨_, rfl, by decide, rfl⟩

/-- A retransmitted check-in is without effect, so the stay follows the stream. -/
theorem admission_exact_retransmission :
    statusRoomAfter asciiText none (admitted plainAdapter asciiText [checkIn "101", checkIn "101"]) =
      statusRoomAfter asciiText none (received plainAdapter asciiText [checkIn "101", checkIn "101"]) := by
  refine (admission_exact_iff plainAdapter asciiText "4711".toList (fun _ _ _ => List.append_cancel_left) none
    ?_).mpr ?_ _ List.prefix_rfl
  · intro b hb
    have : b = checkIn "101" := by simpa using hb
    exact this ▸ checkIn_wellFormed (.inl rfl)
  · intro p b q e hp
    match p, e with
    | [], _ => cases hp
    | [c], e =>
      obtain ⟨rfl, rfl, -⟩ : c = checkIn "101" ∧ b = checkIn "101" ∧ q = [] := by
        simpa [eq_comm] using e
      decide
    | _ :: _ :: _, e => simp at e

/-- A guest moved to another room and back: the last record repeats the first one byte for byte, is dropped
as a retransmission, and the stay keeps the room the guest left. -/
theorem moved_back_is_dropped :
    (∀ b ∈ [checkIn "101", checkIn "102", checkIn "101"],
      WellFormed plainAdapter asciiText "4711".toList b) ∧
    statusRoomAfter asciiText none
      (admitted plainAdapter asciiText [checkIn "101", checkIn "102", checkIn "101"]) =
        some (.inHouse, "102".toList) ∧
    statusRoomAfter asciiText none
      (received plainAdapter asciiText [checkIn "101", checkIn "102", checkIn "101"]) =
        some (.inHouse, "101".toList) := by
  refine ⟨?_, by decide +kernel, by decide +kernel⟩
  intro b hb
  have : b = checkIn "101" ∨ b = checkIn "102" := by
    simp only [List.mem_cons, List.not_mem_nil, or_false] at hb
    rcases hb with h | h | h
    · exact .inl h
    · exact .inr h
    · exact .inl h
  rcases this with rfl | rfl
  · exact checkIn_wellFormed (.inl rfl)
  · exact checkIn_wellFormed (.inr rfl)

end StayConnect.Pms
