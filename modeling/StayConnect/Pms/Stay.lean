import StayConnect.Pms.Event

/-!
# The stay engine

`Resolve` of `internal/stayengine/resolve.go` and the status and room part of `applyDecision`, for an event
that names its reservation. A check-out is applied by the checkout converter, which sets CHECKED_OUT.
`StayView.AppliedIdentity` is never set by `ProcessNext`, so its branch has no counterpart here.
-/

namespace StayConnect.Pms
open StayConnect.Framing

inductive StayStatus where
  | reserved
  | inHouse
  | checkedOut
  | postStayActive
  | cancelled
  | noShow
  deriving DecidableEq, Repr

/-- The row of a reservation in `stays`; an absent room is empty. -/
structure Stay where
  status : StayStatus
  lifecycleVersion : Nat
  room : Bytes

inductive StayOp where
  | createStay
  | updateStay
  | roomMove
  | checkout
  | reinstate
  | vacateOldRoom
  | skipDuplicate
  | manualReview

structure Decision where
  op : StayOp
  newStatus : Option StayStatus := none
  reinstate : Bool := false
  roomMove : Bool := false
  reviewCode : String := ""

def roomChanged (T : TextOps) (room : Bytes) (cur : Stay) : Bool :=
  T.room cur.room != T.room room && T.room room != []

def movedRoom (T : TextOps) (room reservation : Bytes) (cur : Stay) : Bool :=
  roomChanged T room cur && T.room cur.room != [] && reservation != []

def resolve {δ : Type} (T : TextOps) (ev : Event δ) (cur : Option Stay) : Decision :=
  match ev.recordType with
  | .GI =>
    match cur with
    | none => { op := .createStay, newStatus := some .inHouse }
    | some s =>
      match s.status with
      | .checkedOut =>
        { op := .reinstate, newStatus := some .inHouse, reinstate := true
          roomMove := movedRoom T ev.room ev.reservation s }
      | .inHouse =>
        if roomChanged T ev.room s then { op := .roomMove, roomMove := true } else { op := .updateStay }
      | .reserved => { op := .updateStay, newStatus := some .inHouse }
      | _ => { op := .manualReview, reviewCode := "GI_ON_TERMINAL_STAY" }
  | .GC =>
    match cur with
    | none => { op := .manualReview, reviewCode := "GC_UNKNOWN_STAY" }
    | some s =>
      match s.status with
      | .inHouse =>
        if roomChanged T ev.room s then { op := .roomMove, roomMove := true } else { op := .updateStay }
      | .reserved => { op := .updateStay }
      | _ => { op := .manualReview, reviewCode := "GC_ON_TERMINAL_STAY" }
  | .GO =>
    match cur with
    | none => { op := .manualReview, reviewCode := "GO_UNKNOWN_STAY" }
    | some s =>
      match s.status with
      | .inHouse =>
        if movedRoom T ev.room ev.reservation s then { op := .vacateOldRoom }
        else { op := .checkout, newStatus := some .checkedOut }
      | .checkedOut => { op := .skipDuplicate }
      | _ => { op := .manualReview, reviewCode := "GO_ON_NON_INHOUSE_STAY" }
  | _ => { op := .manualReview, reviewCode := "UNKNOWN_EVENT_TYPE" }

/-- `applyDecision`, and the converter's update for a check-out. -/
def applyDecision {δ : Type} (T : TextOps) (ev : Event δ) (cur : Option Stay) (d : Decision) :
    Option Stay :=
  match d.op, cur with
  | .createStay, _ => some { status := .inHouse, lifecycleVersion := 1, room := T.room ev.room }
  | .updateStay, some s => some { s with status := d.newStatus.getD s.status }
  | .roomMove, some s => some { s with room := T.room ev.room }
  | .checkout, some s => some { s with status := .checkedOut }
  | .reinstate, some s =>
    some
      { status := .inHouse
        lifecycleVersion := s.lifecycleVersion + 1
        room := if d.roomMove then T.room ev.room else s.room }
  | _, cur => cur

/-- `ProcessNext` for one event of the reservation: resolve, then apply. -/
def processEvent {δ : Type} (T : TextOps) (cur : Option Stay) (ev : Event δ) : Option Stay :=
  applyDecision T ev cur (resolve T ev cur)

/-- Applying a stream of events in order. -/
def applyAll {δ : Type} (T : TextOps) (cur : Option Stay) (evs : List (Event δ)) : Option Stay :=
  evs.foldl (processEvent T) cur

lemma applyAll_concat {δ} (T : TextOps) (cur : Option Stay) (evs : List (Event δ))
    (ev : Event δ) : applyAll T cur (evs ++ [ev]) = processEvent T (applyAll T cur evs) ev := by
  simp [applyAll]

/-- The status and room of a stay, which the episode count does not enter. -/
def Stay.statusRoom (s : Stay) : StayStatus × Bytes :=
  (s.status, s.room)

lemma processEvent_statusRoom {δ} (T : TextOps) {s t} (ev : Event δ) (h : s.map Stay.statusRoom = t.map Stay.statusRoom) :
    (processEvent T s ev).map Stay.statusRoom = (processEvent T t ev).map Stay.statusRoom := by
  cases s with
  | none =>
    cases t with
    | none => rfl
    | some t => cases h
  | some s =>
    cases t with
    | none => cases h
    | some t =>
      obtain ⟨st, v, room⟩ := s
      obtain ⟨st', v', room'⟩ := t
      simp only [Option.map_some, Stay.statusRoom, Option.some.injEq, Prod.mk.injEq] at h
      obtain ⟨rfl, rfl⟩ := h
      have changed : roomChanged T ev.room ⟨st, v, room⟩ = roomChanged T ev.room ⟨st, v', room⟩ := rfl
      have moved : movedRoom T ev.room ev.reservation ⟨st, v, room⟩ =
          movedRoom T ev.room ev.reservation ⟨st, v', room⟩ := rfl
      cases ht : ev.recordType <;> cases st <;>
        simp only [processEvent, resolve, ht, changed, moved] <;>
        first
        | rfl
        | (split <;> rfl)

end StayConnect.Pms
