import StayConnect.Online.Tick

/-!
# Online time is conserved

`Tracked db session reads` relates the rows of a session to what the ticks read of it: its watermark stands
less than a second below the furthest boundary read, at its first observation plus what was charged plus what
was skipped since. `Settled` relates the counters of the entitlements to the seconds charged to their
sessions. A tick keeps both, session by session and entitlement by entitlement.
-/

namespace StayConnect.Online
open Keyed Iam

/-- The furthest boundary read, from the first observation on. -/
def furthest (f : Int) (rest : List Read) : Int :=
  rest.foldl (fun t r => match r with | .first _ => t | .later top _ => max t top) f

/-- The intervals charged by the reads. -/
def chargedBy (rest : List Read) : List Interval := rest.filterMap Read.interval

def Db.skippedOf (db : Db) (session : Nat) : List SkippedInterval := db.skipped.filter (·.session == session)

/-- The microseconds the skipped intervals hold since the instant. -/
def skippedSince (f : Int) (ks : List SkippedInterval) : Int :=
  ((ks.filter fun k => decide (f ≤ k.skippedFrom)).map fun k => k.skippedTo - k.skippedFrom).sum

/-- The rows of a session that was first observed at `f`, after the reads that followed. -/
structure Watched (db : Db) (session : Nat) (f : Int) (rest : List Read) (w : Watermark) : Prop where
  row : db.watermark session = some w
  once : ∀ t, Read.first t ∉ rest
  balance : w.accountedThrough = f + w.accountedSeconds * second + skippedSince f (db.skippedOf session)
  begun : f ≤ w.accountedThrough
  reached : w.accountedThrough ≤ furthest f rest
  close : furthest f rest < w.accountedThrough + second
  seconds : w.accountedSeconds = total (·.whole) (chargedBy rest)
  disjoint : (chargedBy rest).Pairwise fun i j => i.stop ≤ j.start
  placed : ∀ i ∈ chargedBy rest, f ≤ i.start ∧ i.stop ≤ w.accountedThrough
  within : ∀ top i, Read.later top (some i) ∈ rest → i.stop ≤ top

/-- The rows of a session agree with what the ticks read of it. -/
inductive Tracked (db : Db) (session : Nat) : List Read → Prop where
  | unseen : db.watermark session = none → db.skippedOf session = [] → Tracked db session []
  | seen {f : Int} {rest : List Read} {w : Watermark} : Watched db session f rest w → Tracked db session (.first f :: rest)

@[simp] lemma furthest_snoc {f top rest charged} : furthest f (rest ++ [.later top charged]) = max (furthest f rest) top := by
  unfold furthest
  rw [List.foldl_append]
  rfl

@[simp] lemma chargedBy_snoc {top rest charged} : chargedBy (rest ++ [.later top charged]) = chargedBy rest ++ charged.toList := by
  unfold chargedBy
  rw [List.filterMap_append]
  cases charged <;> rfl

section
variable {db : Db} {s : Session} {session : Nat}

lemma watermark_advance {through whole} : (db.advance s through whole).watermark session =
    (db.watermark session).map fun w => if session = s.id then
      { w with accountedThrough := through, accountedSeconds := w.accountedSeconds + whole } else w := by
  exact lookup_update fun _ => rfl

lemma watermark_observe {t} (absent : db.watermark s.id = none) :
    (db.observe s t).watermark session = if s.id = session then some ⟨s.id, t, 0⟩ else db.watermark session := by
  unfold Db.watermark at absent ⊢
  simp only [Db.observe, lookup_append, lookup_singleton]
  by_cases hit : s.id = session
  · subst hit
    rw [absent, Option.none_or]
  · rw [if_neg hit, Option.or_none, if_neg hit]

@[simp] lemma skippedOf_advance {through whole} : (db.advance s through whole).skippedOf session = db.skippedOf session := rfl

@[simp] lemma skippedOf_observe {t} : (db.observe s t).skippedOf session = db.skippedOf session := rfl

lemma skippedOf_skip {start stop} : (db.skip s start stop).skippedOf session =
    db.skippedOf session ++ if s.id = session then [⟨s.id, s.entitlement, start, stop⟩] else [] := by
  unfold Db.skippedOf Db.skip
  by_cases hit : s.id = session <;> simp [hit]

end

lemma skippedSince_append {f ks ks'} : skippedSince f (ks ++ ks') = skippedSince f ks + skippedSince f ks' := by
  unfold skippedSince
  rw [List.filter_append, List.map_append, List.sum_append]

/-- How far a tick moves a watermark: whole seconds are charged, the rest up to `through` is skipped. -/
structure Advances (base top : Int) (whole : Nat) (through : Int) : Prop where
  charged : base + whole * second ≤ through
  reached : through ≤ max base top
  within : base + whole * second ≤ max base top
  close : top < through + second

def charge (base : Int) (whole : Nat) : Option Interval := if whole = 0 then none else some ⟨base, whole⟩

def gap (s : Session) (start stop : Int) : List SkippedInterval :=
  if start < stop then [⟨s.id, s.entitlement, start, stop⟩] else []

section
variable {c : Call} {bound : Int} {e : Entitlement} {db : Db} {s : Session} {session : Nat}

/-- A session seen for the first time is charged nothing; what lies before its watermark may be skipped. -/
lemma tickSession_unseen (absent : db.watermark s.id = none) (pos : 0 < bound) :
    ∃ t, (tickSession c bound e db s).2 = .first t ∧
      (tickSession c bound e db s).1.watermark s.id = some ⟨s.id, t, 0⟩ ∧
      ∀ k ∈ (tickSession c bound e db s).1.skippedOf s.id, k ∈ db.skippedOf s.id ∨ k.skippedFrom < t := by
  unfold tickSession
  simp only [absent]
  refine ⟨max (ceiling c e s) s.started, rfl, ?_⟩
  by_cases far : bound * second < ceiling c e s - s.started
  · rw [if_pos far]
    refine ⟨(watermark_observe absent).trans (if_pos rfl), fun k hk => ?_⟩
    rw [skippedOf_observe, skippedOf_skip, if_pos rfl] at hk
    refine (List.mem_append.mp hk).imp id fun new => ?_
    rw [List.mem_singleton.mp new]
    have ahead : 0 < bound * second := Int.mul_pos pos (by decide)
    exact lt_max_of_lt_left (by dsimp only; omega)
  · rw [if_neg far]
    exact ⟨(watermark_observe absent).trans (if_pos rfl), fun k hk => .inl hk⟩

/-- A tick that charges a session the whole seconds up to `billable`. -/
lemma tickSession_due {w} (row : db.watermark s.id = some w) (due : w.accountedThrough < ceiling c e s)
    {billable} (at_ : billable = min (ceiling c e s) (w.accountedThrough + bound * second)) {whole}
    (floor : whole = ((billable - w.accountedThrough) / second).toNat) {through}
    (new : through = if billable < ceiling c e s then ceiling c e s else w.accountedThrough + whole * second)
    {skipped} (rows : skipped = if billable < ceiling c e s then db.skip s billable (ceiling c e s) else db) :
    (tickSession c bound e db s).2 = .later (ceiling c e s) (charge w.accountedThrough whole) ∧
      ((tickSession c bound e db s).1 = skipped.advance s through whole ∨
        (tickSession c bound e db s).1 = skipped ∧ whole = 0 ∧ through ≤ w.accountedThrough) := by
  unfold tickSession charge
  simp only [row, if_neg (not_le.mpr due), ← at_, ← floor, ← new, ← rows]
  by_cases zero : whole = 0
  · rw [if_pos zero, if_pos zero]
    refine ⟨rfl, ?_⟩
    by_cases moved : w.accountedThrough < through
    · exact .inl (by rw [if_pos moved, zero])
    · exact .inr ⟨if_neg moved, zero, not_lt.mp moved⟩
  · rw [if_neg zero, if_neg zero]
    exact ⟨rfl, .inl rfl⟩

/-- The whole seconds up to `billable`, and what is skipped beyond. -/
lemma advances_due {base top billable through whole} (pos : 0 < bound) (due : base < top)
    (at_ : billable = min top (base + bound * second)) (floor : whole = ((billable - base) / second).toNat)
    (new : through = if billable < top then top else base + whole * second) :
    Advances base top whole through ∧ (billable < top → billable = base + whole * second ∧ through = top) ∧
      (¬ billable < top → through = base + whole * second) := by
  unfold second at *
  by_cases far : billable < top
  · rw [if_pos far] at new
    have full : billable = base + bound * 1000000 := by omega
    have whole_eq : (whole : Int) = bound := by omega
    have bounds : base + whole * 1000000 ≤ through ∧ through ≤ max base top ∧ base + whole * 1000000 ≤ max base top ∧
      top < through + 1000000 := by omega
    exact ⟨⟨bounds.1, bounds.2.1, bounds.2.2.1, bounds.2.2.2⟩, fun _ => ⟨by omega, new⟩, fun near => absurd far near⟩
  · rw [if_neg far] at new
    have full : billable = top := by omega
    have bounds : base + whole * 1000000 ≤ through ∧ through ≤ max base top ∧ base + whole * 1000000 ≤ max base top ∧
      top < through + 1000000 := by omega
    exact ⟨⟨bounds.1, bounds.2.1, bounds.2.2.1, bounds.2.2.2⟩, fun h => absurd h far, fun _ => new⟩

/-- A later tick moves the watermark to its boundary, but for less than a second. -/
lemma tickSession_seen {w} (row : db.watermark s.id = some w) (pos : 0 < bound) :
    ∃ whole through, Advances w.accountedThrough (ceiling c e s) whole through ∧
      (tickSession c bound e db s).2 = .later (ceiling c e s) (charge w.accountedThrough whole) ∧
      (tickSession c bound e db s).1.watermark s.id =
        some { w with accountedThrough := through, accountedSeconds := w.accountedSeconds + whole } ∧
      (tickSession c bound e db s).1.skippedOf s.id = db.skippedOf s.id ++ gap s (w.accountedThrough + whole * second) through := by
  by_cases due : w.accountedThrough < ceiling c e s
  · obtain ⟨billable, at_⟩ : ∃ b, b = min (ceiling c e s) (w.accountedThrough + bound * second) := ⟨_, rfl⟩
    obtain ⟨whole, floor⟩ : ∃ n, n = ((billable - w.accountedThrough) / second).toNat := ⟨_, rfl⟩
    obtain ⟨through, new⟩ : ∃ t, t = if billable < ceiling c e s then ceiling c e s
      else w.accountedThrough + whole * second := ⟨_, rfl⟩
    obtain ⟨skipped, rows⟩ : ∃ db', db' = if billable < ceiling c e s then db.skip s billable (ceiling c e s)
      else db := ⟨_, rfl⟩
    obtain ⟨advances, far, near⟩ := advances_due pos due at_ floor new
    obtain ⟨read, tables⟩ := tickSession_due row due at_ floor new rows
    have kept : skipped.watermark s.id = some w := by
      rw [rows]
      split <;> exact row
    have gaps : skipped.skippedOf s.id =
        db.skippedOf s.id ++ gap s (w.accountedThrough + whole * second) through := by
      rw [rows]
      split
      case isTrue h =>
        obtain ⟨at_, last⟩ := far h
        rw [skippedOf_skip, if_pos rfl, gap, last, ← at_, if_pos h]
      case isFalse h =>
        rw [near h, gap, if_neg (lt_irrefl _), List.append_nil]
    refine ⟨whole, through, advances, read, ?_⟩
    rcases tables with moved | ⟨same, zero, le⟩
    · rw [moved, watermark_advance, kept, skippedOf_advance, gaps]
      exact ⟨by rw [Option.map_some, if_pos rfl], rfl⟩
    have still : through = w.accountedThrough := by
      have := advances.charged
      rw [zero] at this
      omega
    rw [same, kept, gaps, still, zero]
    exact ⟨rfl, rfl⟩
  · refine ⟨0, w.accountedThrough, ⟨by simp, le_max_left _ _, by simp, ?_⟩, ?_⟩
    · unfold second
      omega
    · unfold tickSession charge gap
      simp [row, not_lt.mp due]

/-- What a tick may do with the rows of one session. -/
inductive Touches (s : Session) (db : Db) : Db → Prop where
  | none : Touches s db db
  | skip {db' : Db} {start stop : Int} : Touches s db db' → Touches s db (db'.skip s start stop)
  | observe {db' : Db} {t : Int} : Touches s db db' → Touches s db (db'.observe s t)
  | advance {db' : Db} {through : Int} {whole : Nat} : Touches s db db' → Touches s db (db'.advance s through whole)

lemma tickSession_touches : Touches s db (tickSession c bound e db s).1 := by
  have skips {p : Prop} [Decidable p] {start stop : Int} : Touches s db (if p then db.skip s start stop else db) := by
    by_cases h : p
    · exact if_pos h ▸ .skip .none
    · exact if_neg h ▸ .none
  cases row : db.watermark s.id with
  | none =>
    unfold tickSession
    simp only [row]
    exact .observe skips
  | some w =>
    by_cases due : w.accountedThrough < ceiling c e s
    · obtain ⟨-, moved | ⟨same, -⟩⟩ := @tickSession_due c bound e db s w row due _ rfl _ rfl _ rfl _ rfl
      · exact moved ▸ .advance skips
      · exact same ▸ skips
    · unfold tickSession
      simp only [row, if_pos (not_lt.mp due)]
      exact .none

namespace Touches

variable {db' : Db}

lemma entitlements (h : Touches s db db') : db'.entitlements = db.entitlements := by
  induction h with
  | none => rfl
  | skip _ ih | observe _ ih | advance _ ih => exact ih

lemma sessions (h : Touches s db db') : db'.sessions = db.sessions := by
  induction h with
  | none => rfl
  | skip _ ih | observe _ ih | advance _ ih => exact ih

lemma evidence (h : Touches s db db') : db'.adjustmentEvidence = db.adjustmentEvidence := by
  induction h with
  | none => rfl
  | skip _ ih | observe _ ih | advance _ ih => exact ih

lemma other (h : Touches s db db') (ne : s.id ≠ session) :
    db'.watermark session = db.watermark session ∧ db'.skippedOf session = db.skippedOf session := by
  induction h with
  | none => exact ⟨rfl, rfl⟩
  | skip _ ih => exact ⟨ih.1, by rw [skippedOf_skip, if_neg ne, List.append_nil, ih.2]⟩
  | observe _ ih =>
    refine ⟨?_, ih.2⟩
    unfold Db.watermark at ih ⊢
    rw [Db.observe, lookup_append, lookup_singleton, if_neg ne, Option.or_none, ih.1]
  | advance _ ih =>
    refine ⟨?_, ih.2⟩
    simp only [watermark_advance, if_neg (Ne.symm ne), Option.map_id', ih.1]

end Touches

end

section
variable {db db' : Db} {session : Nat} {reads : List Read}

lemma Watched.congr {f w} (h : Watched db session f reads w)
    (row : db'.watermark session = db.watermark session) (gaps : db'.skippedOf session = db.skippedOf session) :
    Watched db' session f reads w :=
  { h with
    row := row.trans h.row
    balance := gaps ▸ h.balance }

lemma Tracked.congr (h : Tracked db session reads)
    (row : db'.watermark session = db.watermark session) (gaps : db'.skippedOf session = db.skippedOf session) :
    Tracked db' session reads := by
  cases h with
  | unseen absent none => exact .unseen (row.trans absent) (gaps.trans none)
  | seen watched => exact .seen (watched.congr row gaps)

lemma skippedSince_eq_zero {f ks} (h : ∀ k ∈ ks, k.skippedFrom < f) : skippedSince f ks = 0 := by
  unfold skippedSince
  rw [List.filter_eq_nil_iff.mpr fun k hk => by simpa using h k hk]
  rfl

lemma skippedSince_gap {f start stop s} (le : f ≤ start) (fwd : start ≤ stop) : skippedSince f (gap s start stop) = stop - start := by
  unfold gap
  by_cases h : start < stop
  · simp [skippedSince, h, le]
  · simp [skippedSince, h]
    omega

lemma Watched.step {f base top through whole w s}
    (h : Watched db session f reads w) (at_ : base = w.accountedThrough) (adv : Advances base top whole through)
    (row : db'.watermark session =
      some { w with accountedThrough := through, accountedSeconds := w.accountedSeconds + whole })
    (gaps : db'.skippedOf session = db.skippedOf session ++ gap s (base + whole * second) through) :
    Watched db' session f (reads ++ [.later top (charge base whole)])
      { w with accountedThrough := through, accountedSeconds := w.accountedSeconds + whole } := by
  obtain ⟨charged, reached, within, close⟩ := adv
  have forward : 0 ≤ (whole : Int) * second := by unfold second; omega
  have begun := h.begun
  have charges : ∀ i ∈ (charge base whole).toList, i = ⟨base, whole⟩ := by
    unfold charge
    split <;> simp
  constructor
  case row => exact row
  case once =>
    intro t mem
    rcases List.mem_append.mp mem with old | new
    · exact h.once t old
    · cases List.mem_singleton.mp new
  case balance =>
    have old := h.balance
    rw [gaps, skippedSince_append, skippedSince_gap (by omega) charged]
    push_cast
    rw [Int.add_mul]
    omega
  case begun => dsimp only; omega
  case reached =>
    have := h.reached
    rw [furthest_snoc]
    dsimp only
    omega
  case close =>
    have := h.close
    rw [furthest_snoc]
    dsimp only
    omega
  case seconds =>
    rw [chargedBy_snoc, total_append, ← h.seconds]
    unfold charge
    split
    case isTrue zero => rw [zero]; rfl
    case isFalse => rfl
  case disjoint =>
    rw [chargedBy_snoc]
    refine List.pairwise_append.mpr ⟨h.disjoint, ?_, fun i hi j hj => ?_⟩
    · unfold charge
      split <;> simp
    · rw [charges j hj]
      have := (h.placed i hi).2
      dsimp only
      omega
  case placed =>
    intro i hi
    rw [chargedBy_snoc] at hi
    rcases List.mem_append.mp hi with old | new
    · have := h.placed i old
      dsimp only
      omega
    · rw [charges i new]
      unfold Interval.stop
      dsimp only
      omega
  case within =>
    intro top' i mem
    rcases List.mem_append.mp mem with old | new
    · exact h.within top' i old
    obtain ⟨rfl, hi⟩ := Read.later.inj (List.mem_singleton.mp new)
    rw [charges i (by rw [← hi]; exact Option.mem_toList.mpr rfl)]
    unfold charge at hi
    split at hi
    case isTrue => cases hi
    case isFalse zero =>
      have some : 0 < (whole : Int) * second := by unfold second; omega
      unfold Interval.stop
      dsimp only
      omega

end

section
variable {c : Call} {bound : Int} {e : Entitlement} {db : Db} {s : Session} {session : Nat} {reads : List Read}

lemma Tracked.own (h : Tracked db s.id reads) (pos : 0 < bound) :
    Tracked (tickSession c bound e db s).1 s.id (reads ++ [(tickSession c bound e db s).2]) := by
  cases h with
  | unseen absent none =>
    obtain ⟨t, read, row, gaps⟩ := tickSession_unseen (c := c) (e := e) absent pos
    have before : skippedSince t ((tickSession c bound e db s).1.skippedOf s.id) = 0 := by
      refine skippedSince_eq_zero fun k hk => (gaps k hk).resolve_left fun old => ?_
      rw [none] at old
      cases old
    rw [read]
    refine .seen ⟨row, fun t => List.not_mem_nil, ?_, le_refl _, le_refl _, ?_, rfl, .nil, ?_, ?_⟩
    · rw [before]
      simp
    · change t < t + second
      unfold second
      omega
    · exact fun i hi => absurd hi List.not_mem_nil
    · exact fun top i hi => absurd hi List.not_mem_nil
  | seen watched =>
    obtain ⟨whole, through, adv, read, row, gaps⟩ := tickSession_seen (c := c) (e := e) watched.row pos
    rw [read]
    exact .seen (watched.step rfl adv row gaps)

def readsOf (session : Nat) (reads : List (Nat × Read)) : List Read :=
  reads.filterMap fun r => if r.1 = session then some r.2 else none

lemma readsOf_append {xs ys} : readsOf session (xs ++ ys) = readsOf session xs ++ readsOf session ys :=
  List.filterMap_append

lemma readsOf_cons {r xs} : readsOf session (r :: xs) = (if r.1 = session then [r.2] else []) ++ readsOf session xs := by
  unfold readsOf
  by_cases hit : r.1 = session <;> simp [hit]

lemma Tracked.tickSession (h : Tracked db session reads) (pos : 0 < bound) :
    Tracked (tickSession c bound e db s).1 session
      (reads ++ if s.id = session then [(Online.tickSession c bound e db s).2] else []) := by
  by_cases hit : s.id = session
  · subst hit
    rw [if_pos rfl]
    exact h.own pos
  · obtain ⟨row, gaps⟩ := (@tickSession_touches c bound e db s).other hit
    rw [if_neg hit, List.append_nil]
    exact h.congr row gaps

lemma Tracked.tickSessions {ss} (h : Tracked db session reads) (pos : 0 < bound) :
    Tracked (tickSessions c bound e ss db).1 session (reads ++ readsOf session (Online.tickSessions c bound e ss db).2) := by
  induction ss generalizing db reads with
  | nil => exact (List.append_nil reads).symm ▸ h
  | cons s rest ih =>
    have next := ih (h.tickSession (c := c) (e := e) (s := s) pos)
    rw [List.append_assoc] at next
    change Tracked _ session (reads ++ readsOf session ((s.id, _) :: _))
    rw [readsOf_cons]
    exact next

end

/-- The seconds charged to a session. -/
def Db.accounted (db : Db) (session : Nat) : Nat := (db.watermark session).elim 0 (·.accountedSeconds)

/-- The seconds charged to the sessions of an entitlement. -/
def Db.used (db : Db) (e : Nat) : Nat := total (fun s => db.accounted s.id) (db.sessions.filter (·.entitlement == e))

/-- Capped at the budget. -/
def capped : Option Int → Nat → Nat
  | none, used => used
  | some budget, used => min used budget.toNat

/-- The counters of the entitlements are the seconds charged to their sessions, capped at the budget. -/
structure Settled (db : Db) : Prop where
  sessions : (db.sessions.map (·.id)).Nodup
  entitlements : (db.entitlements.map (·.id)).Nodup
  owned : ∀ id, db.watermark id ≠ none → id ∈ db.sessions.map (·.id)
  consumed : ∀ e ∈ db.entitlements, e.consumedOnlineSeconds = capped e.timeQuotaSeconds (db.used e.id)

def Read.seconds (r : Read) : Nat := r.interval.elim 0 (·.whole)

section
variable {c : Call} {bound : Int} {e : Entitlement} {db : Db} {s : Session} {session : Nat}

lemma accounted_tickSession (pos : 0 < bound) : (tickSession c bound e db s).1.accounted session =
    db.accounted session + if s.id = session then (tickSession c bound e db s).2.seconds else 0 := by
  unfold Db.accounted
  by_cases hit : s.id = session
  · subst hit
    rw [if_pos rfl]
    cases row : db.watermark s.id with
    | none =>
      obtain ⟨t, read, row, -⟩ := tickSession_unseen (c := c) (e := e) row pos
      rw [read, row]
      rfl
    | some w =>
      obtain ⟨whole, through, -, read, row, -⟩ := tickSession_seen (c := c) (e := e) row pos
      rw [read, row]
      unfold Read.seconds Read.interval charge
      by_cases zero : whole = 0
      · simp [zero]
      · simp [zero]
  · rw [if_neg hit, ((@tickSession_touches c bound e db s).other hit).1, Nat.add_zero]

lemma used_tickSession (settled : (db.sessions.map (·.id)).Nodup) (mem : s ∈ db.sessions) (pos : 0 < bound) {x} :
    (tickSession c bound e db s).1.used x = db.used x + if s.entitlement = x then (tickSession c bound e db s).2.seconds else 0 := by
  have apart : ∀ y ∈ db.sessions, y ≠ s → s.id ≠ y.id := fun y hy ne same =>
    ne (List.inj_on_of_nodup_map settled hy mem same.symm)
  unfold Db.used
  rw [tickSession_touches.sessions]
  by_cases hit : s.entitlement = x
  · have point := total_point (g := fun y => db.accounted y.id)
      (m := fun y => (tickSession c bound e db s).1.accounted y.id)
      (List.mem_filter.mpr ⟨mem, by simpa using hit⟩) (settled.of_map.filter (·.entitlement == x)) fun y hy ne => by
        rw [accounted_tickSession pos, if_neg (apart y (List.mem_filter.mp hy).1 ne), Nat.add_zero]
    have own := @accounted_tickSession c bound e db s s.id pos
    rw [if_pos rfl] at own
    rw [if_pos hit]
    omega
  · rw [if_neg hit, Nat.add_zero]
    refine total_congr fun y hy => ?_
    obtain ⟨hy, owner⟩ := List.mem_filter.mp hy
    have ne : y ≠ s := fun same => hit (by simpa [same] using owner)
    rw [accounted_tickSession pos, if_neg (apart y hy ne), Nat.add_zero]

/-- What the ticks of an entitlement's sessions leave. -/
structure Charged (e : Nat) (db db' : Db) (seconds : Nat) : Prop where
  sessions : db'.sessions = db.sessions
  entitlements : db'.entitlements = db.entitlements
  used : ∀ x, db'.used x = db.used x + if e = x then seconds else 0
  owned : ∀ id, db'.watermark id ≠ none → db.watermark id ≠ none ∨ id ∈ db.sessions.map (·.id)

lemma Charged.tickSession (nodup : (db.sessions.map (·.id)).Nodup) (mem : s ∈ db.sessions) (pos : 0 < bound) :
    Charged s.entitlement db (tickSession c bound e db s).1 (Online.tickSession c bound e db s).2.seconds where
  sessions := tickSession_touches.sessions
  entitlements := tickSession_touches.entitlements
  used _ := used_tickSession nodup mem pos
  owned id present := by
    by_cases hit : s.id = id
    · exact .inr (hit ▸ List.mem_map_of_mem mem)
    · rw [(tickSession_touches.other hit).1] at present
      exact .inl present

lemma total_intervals {reads} : total (·.whole) (intervals reads) = total (·.2.seconds) reads := by
  unfold intervals
  induction reads with
  | nil => rfl
  | cons r rest ih =>
    rw [total_cons, ← ih]
    unfold Read.seconds
    cases found : r.2.interval <;> simp [found]

lemma tickSessions_cons {rest} : tickSessions c bound e (s :: rest) db =
    ((tickSessions c bound e rest (tickSession c bound e db s).1).1,
      (s.id, (tickSession c bound e db s).2) :: (tickSessions c bound e rest (tickSession c bound e db s).1).2) := rfl

lemma Charged.tickSessions {ss} (nodup : (db.sessions.map (·.id)).Nodup)
    (mem : ∀ s ∈ ss, s ∈ db.sessions ∧ s.entitlement = e.id) (pos : 0 < bound) :
    Charged e.id db (tickSessions c bound e ss db).1 (total (·.whole) (intervals (Online.tickSessions c bound e ss db).2)) := by
  rw [total_intervals]
  induction ss generalizing db with
  | nil => exact ⟨rfl, rfl, fun x => by simp [Online.tickSessions], fun _ => .inl⟩
  | cons s rest ih =>
    obtain ⟨here, owner⟩ := mem s List.mem_cons_self
    have first := Charged.tickSession (c := c) (e := e) nodup here pos
    have next := ih (first.sessions ▸ nodup) fun t ht => first.sessions ▸ mem t (List.mem_cons_of_mem _ ht)
    refine ⟨next.sessions.trans first.sessions, next.entitlements.trans first.entitlements, fun x => ?_, fun id present => ?_⟩
    · rw [tickSessions_cons, next.used, first.used, owner, total_cons]
      dsimp only
      split <;> omega
    · rcases next.owned id present with before | mine
      · exact first.owned id before
      · exact .inr (first.sessions ▸ mine)

namespace Settled

variable {db₀ : Db}

lemma consumed_eq_used (settled : Settled db) (mem : e ∈ db.entitlements) (live : e.exhausted = false) :
    e.consumedOnlineSeconds = db.used e.id := by
  have counter := settled.consumed e mem
  unfold Entitlement.exhausted at live
  cases quota : e.timeQuotaSeconds with
  | none => rw [counter, quota, capped]
  | some budget =>
    simp [quota] at live
    rw [quota, capped] at counter
    omega

lemma charged_zero (settled : Settled db₀) (charged : Charged e.id db₀ db 0) : Settled db where
  sessions := charged.sessions ▸ settled.sessions
  entitlements := charged.entitlements ▸ settled.entitlements
  owned x present := charged.sessions ▸ (charged.owned x present).elim (settled.owned x) id
  consumed x hx := by
    rw [settled.consumed x (charged.entitlements ▸ hx), charged.used, ite_self, Nat.add_zero]

lemma setConsumed {n v t} (settled : Settled db₀) (mem : e ∈ db₀.entitlements)
    (charged : Charged e.id db₀ db n) (value : v = capped e.timeQuotaSeconds (db₀.used e.id + n)) :
    Settled (db.setConsumed e.id v t) where
  sessions := charged.sessions ▸ settled.sessions
  entitlements := by
    have ids : (db.setConsumed e.id v t).entitlements.map (·.id) = db.entitlements.map (·.id) :=
      keys_map fun x => by split <;> rfl
    rw [ids, charged.entitlements]
    exact settled.entitlements
  owned x present := charged.sessions ▸ (charged.owned x present).elim (settled.owned x) id
  consumed x hx := by
    obtain ⟨y, hy, rfl⟩ := List.mem_map.mp hx
    rw [charged.entitlements] at hy
    change _ = capped _ (db.used _)
    rw [charged.used]
    by_cases hit : y.id = e.id
    · have same : y = e := List.inj_on_of_nodup_map settled.entitlements hy mem hit
      subst same
      simp [value]
    · simp [hit, Ne.symm hit, settled.consumed y hy]

lemma settle {is} (settled : Settled db₀) (mem : e ∈ db₀.entitlements)
    (live : e.exhausted = false) (charged : Charged e.id db₀ db (total (·.whole) is)) : Settled (settle e is db).1 := by
  have before := settled.consumed_eq_used mem live
  unfold Online.settle
  by_cases zero : total (·.whole) is = 0
  · rw [if_pos zero]
    exact settled.charged_zero (zero ▸ charged)
  rw [if_neg zero]
  cases quota : e.timeQuotaSeconds with
  | none => exact settled.setConsumed mem charged (by rw [quota, capped, before])
  | some budget =>
    dsimp only
    split
    all_goals
      refine settled.setConsumed mem charged ?_
      rw [quota, capped]
      omega

end Settled

lemma readable_spec (mem : s ∈ db.readable e) : s ∈ db.sessions ∧ s.entitlement = e.id := by
  obtain ⟨here, readable⟩ := List.mem_filter.mp mem
  rw [Bool.and_eq_true, beq_iff_eq] at readable
  exact ⟨here, readable.1⟩

lemma Settled.tickEntitlement (settled : Settled db) (mem : e ∈ db.entitlements) (pos : 0 < bound) :
    Settled (tickEntitlement c bound db e).1 := by
  unfold Online.tickEntitlement
  split
  · exact settled
  case isFalse live =>
    exact settled.settle mem (Bool.not_eq_true _ ▸ live)
      (Charged.tickSessions settled.sessions (fun _ => readable_spec) pos)

lemma mem_setConsumed {x v t} (mem : x ∈ db.entitlements) (ne : x.id ≠ e.id) : x ∈ (db.setConsumed e.id v t).entitlements :=
  List.mem_map.mpr ⟨x, mem, if_neg ne⟩

lemma tickSessions_frame {ss} : (tickSessions c bound e ss db).1.entitlements = db.entitlements ∧
    (tickSessions c bound e ss db).1.sessions = db.sessions ∧
    (tickSessions c bound e ss db).1.adjustmentEvidence = db.adjustmentEvidence := by
  induction ss generalizing db with
  | nil => exact ⟨rfl, rfl, rfl⟩
  | cons s rest ih =>
    obtain ⟨rows, sessions, evidence⟩ := @ih (tickSession c bound e db s).1
    have touched := @tickSession_touches c bound e db s
    rw [tickSessions_cons]
    exact ⟨rows.trans touched.entitlements, sessions.trans touched.sessions, evidence.trans touched.evidence⟩

lemma mem_tickEntitlement {x} (mem : x ∈ db.entitlements) (ne : x.id ≠ e.id) : x ∈ (tickEntitlement c bound db e).1.entitlements := by
  unfold tickEntitlement
  split
  · exact mem
  rw [← (@tickSessions_frame c bound e db (db.readable e)).1] at mem
  dsimp only [settle]
  split
  · exact mem
  split
  · split
    · exact mem_setConsumed mem ne
    · exact mem_setConsumed mem ne
  · exact mem_setConsumed mem ne

lemma Settled.tickEntitlements {es} (settled : Settled db) (mem : ∀ e ∈ es, e ∈ db.entitlements)
    (nodup : (es.map (·.id)).Nodup) (pos : 0 < bound) : Settled (tickEntitlements c bound es db).1 := by
  induction es generalizing db with
  | nil => exact settled
  | cons e rest ih =>
    obtain ⟨fresh, nodup⟩ := List.nodup_cons.mp nodup
    refine ih (settled.tickEntitlement (mem e List.mem_cons_self) pos) (fun x hx => ?_) nodup
    exact mem_tickEntitlement (mem x (List.mem_cons_of_mem _ hx)) fun same => fresh (List.mem_map.mpr ⟨x, hx, same⟩)

lemma settle_rows {is} : (settle e is db).1.watermark session = db.watermark session ∧
    (settle e is db).1.skippedOf session = db.skippedOf session := by
  dsimp only [settle]
  split
  · exact ⟨rfl, rfl⟩
  · split
    · split <;> exact ⟨rfl, rfl⟩
    · exact ⟨rfl, rfl⟩

lemma Tracked.tickEntitlement {reads} (h : Tracked db session reads) (pos : 0 < bound) :
    Tracked (tickEntitlement c bound db e).1 session (reads ++ readsOf session (Online.tickEntitlement c bound db e).2.2) := by
  unfold Online.tickEntitlement
  split
  · exact (List.append_nil reads).symm ▸ h
  · exact (h.tickSessions pos).congr settle_rows.1 settle_rows.2

lemma Tracked.tickEntitlements {es reads} (h : Tracked db session reads) (pos : 0 < bound) :
    Tracked (tickEntitlements c bound es db).1 session (reads ++ readsOf session (Online.tickEntitlements c bound es db).2.2) := by
  induction es generalizing db reads with
  | nil => exact (List.append_nil reads).symm ▸ h
  | cons e rest ih =>
    have next := ih (h.tickEntitlement (c := c) (e := e) pos)
    rw [List.append_assoc, ← readsOf_append] at next
    exact next

end

def history (db : Db) : List Op → Db × List (Nat × Read)
  | [] => (db, [])
  | op :: rest => ((history (op.apply db) rest).1, op.reads db ++ (history (op.apply db) rest).2)

section
variable {db : Db} {op : Op} {session : Nat} {reads : List Read}

lemma p6TickOnlineTime_cases {c} : p6TickOnlineTime c db = none ∨
    ∃ bound, 0 < bound ∧ p6TickOnlineTime c db = some (tickEntitlements c bound (db.due c) db) := by
  unfold p6TickOnlineTime
  split
  case h_1 bound _ =>
    by_cases pos : 0 < bound
    · exact .inr ⟨bound, pos, if_pos pos⟩
    · exact .inl (if_neg pos)
  case h_2 => exact .inl rfl

lemma Tracked.apply (h : Tracked db session reads) : Tracked (op.apply db) session (reads ++ readsOf session (op.reads db)) := by
  have kept : Tracked db session (reads ++ readsOf session []) := (List.append_nil reads).symm ▸ h
  cases op with
  | tick c =>
    rcases @p6TickOnlineTime_cases db c with refused | ⟨bound, pos, ticked⟩
    · simp only [Op.apply, Op.reads, refused]
      exact kept
    · simp only [Op.apply, Op.reads, ticked]
      exact h.tickEntitlements pos
  | openSession s =>
    dsimp only [Op.apply]
    split
    · exact kept
    · exact kept.congr rfl rfl
  | activate id | endSession id t | setStatus e status => exact kept.congr rfl rfl

lemma Settled.setSession {id f} (h : Settled db)
    (hid : ∀ s, (f s).id = s.id) (owner : ∀ s, (f s).entitlement = s.entitlement) : Settled (db.setSession id f) := by
  have ids : (db.setSession id f).sessions.map (·.id) = db.sessions.map (·.id) :=
    keys_map fun s => by split; exacts [hid s, rfl]
  have used (x : Nat) : (db.setSession id f).used x = db.used x := by
    unfold Db.used Db.setSession
    rw [List.filter_map, total_map]
    have owners : ((·.entitlement == x) ∘ fun s => if s.id = id then f s else s) = (fun s : Session => s.entitlement == x) := by
      funext s
      by_cases hit : s.id = id <;> simp [hit, owner]
    rw [owners]
    refine total_congr fun s _ => ?_
    by_cases hit : s.id = id
    · rw [if_pos hit, hid]
      rfl
    · rw [if_neg hit]
      rfl
  exact ⟨ids ▸ h.sessions, h.entitlements, fun y present => ids ▸ h.owned y present, fun e he => used e.id ▸ h.consumed e he⟩

lemma Settled.openSession {s} (h : Settled db) (fresh : s.id ∉ db.sessions.map (·.id)) :
    Settled { db with sessions := db.sessions ++ [s] } where
  sessions := by
    rw [List.map_append]
    refine List.nodup_append.mpr ⟨h.sessions, List.nodup_singleton _, fun a ha b hb same => ?_⟩
    have last : b = s.id := List.mem_singleton.mp hb
    exact fresh (last ▸ same ▸ ha)
  entitlements := h.entitlements
  owned id present := by
    rw [List.map_append]
    exact List.mem_append_left _ (h.owned id present)
  consumed e he := by
    have uncharged : db.accounted s.id = 0 := by
      unfold Db.accounted
      rw [not_not.mp (mt (h.owned s.id) fresh)]
      rfl
    have used : Db.used { db with sessions := db.sessions ++ [s] } e.id = db.used e.id + total (fun t => db.accounted t.id)
        ([s].filter (·.entitlement == e.id)) := by
      unfold Db.used
      rw [List.filter_append, total_append]
      rfl
    rw [used, total_eq_zero, Nat.add_zero]
    · exact h.consumed e he
    · intro t ht
      rw [List.mem_singleton.mp (List.mem_of_mem_filter ht), uncharged]

lemma Settled.apply (h : Settled db) : Settled (op.apply db) := by
  cases op with
  | tick c =>
    rcases @p6TickOnlineTime_cases db c with refused | ⟨bound, pos, ticked⟩
    · simp only [Op.apply, refused]
      exact h
    · simp only [Op.apply, ticked]
      exact h.tickEntitlements (fun e he => List.mem_of_mem_filter he)
        (h.entitlements.sublist (List.filter_sublist.map _)) pos
  | openSession s =>
    dsimp only [Op.apply]
    split
    · exact h
    case isFalse fresh => exact h.openSession (by simpa using fresh)
  | activate id | endSession id t => exact h.setSession (fun s => by split <;> rfl) fun s => by split <;> rfl
  | setStatus e status =>
    refine ⟨h.sessions, ?_, h.owned, fun x hx => ?_⟩
    · have ids : ((Op.setStatus e status).apply db).entitlements.map (·.id) = db.entitlements.map (·.id) :=
        keys_map fun x => by split <;> rfl
      exact ids ▸ h.entitlements
    · obtain ⟨y, hy, rfl⟩ := List.mem_map.mp hx
      split <;> exact h.consumed y hy

lemma Tracked.history {ops} (h : Tracked db session reads) :
    Tracked (history db ops).1 session (reads ++ readsOf session (Online.history db ops).2) := by
  induction ops generalizing db reads with
  | nil => exact (List.append_nil reads).symm ▸ h
  | cons op rest ih =>
    have applied : Tracked (op.apply db) session (reads ++ readsOf session (op.reads db)) := h.apply
    have next := ih applied
    rw [List.append_assoc, ← readsOf_append] at next
    exact next

lemma Settled.history {ops} (h : Settled db) : Settled (history db ops).1 := by
  induction ops generalizing db with
  | nil => exact h
  | cons op rest ih => exact ih h.apply

structure Db.Unticked (db : Db) : Prop where
  watermarks : db.watermarks = []
  skipped : db.skipped = []
  consumed : ∀ e ∈ db.entitlements, e.consumedOnlineSeconds = 0
  sessions : (db.sessions.map (·.id)).Nodup
  entitlements : (db.entitlements.map (·.id)).Nodup

lemma Db.Unticked.watermark (h : db.Unticked) : db.watermark session = none := by
  unfold Db.watermark
  rw [h.watermarks]
  rfl

lemma Db.Unticked.settled (h : db.Unticked) : Settled db where
  sessions := h.sessions
  entitlements := h.entitlements
  owned _ present := absurd h.watermark present
  consumed e he := by
    have unused : db.used e.id = 0 := total_eq_zero fun s _ => by
      unfold Db.accounted
      rw [h.watermark]
      rfl
    rw [h.consumed e he, unused]
    cases e.timeQuotaSeconds <;> simp [capped]

end

/-- An entitlement with a budget, and one session of it. -/
def budgeted (seconds : Int) : Entitlement := ⟨1, ⟨1, 1⟩, .active, .aggregateOnlineTime, some seconds, 0, none, none⟩

end StayConnect.Online
