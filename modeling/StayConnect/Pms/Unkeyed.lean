import StayConnect.Pms.Serve

/-!
# Records without a usable identity

A roster holds records that name no stay: the room or the reservation is missing, or it is there and blank. The loop skips and
counts those whose field is missing. A blank one passes the projection, which counts fields, and fails the validation, which
trims them, so it is a continuity fault. `Window` is what a sweep keeps from its DS to its DE, faults or not; the generation is
published in any case.
-/

namespace StayConnect.Pms
open StayConnect.Framing

/-- A guest record with at most one room and one reservation. -/
structure ParsedRecord.Unambiguous (pr : ParsedRecord) : Prop where
  domain : pr.recordType.isDomain = true
  room : (pr.values fcRoom).length ≤ 1
  reservation : (pr.values fcReservation).length ≤ 1

/-- The room is missing or blank, or, but for a check-out, the reservation is. -/
def ParsedRecord.Unkeyed (T : TextOps) (pr : ParsedRecord) : Prop :=
  (∀ v ∈ pr.values fcRoom, T.blank v = true) ∨ (pr.recordType ≠ .GO ∧ ∀ v ∈ pr.values fcReservation, T.blank v = true)

/-- A field is missing altogether, or the record is a check-out inside a sweep that names no reservation. -/
def ParsedRecord.Missing (T : TextOps) (resyncing : Bool) (pr : ParsedRecord) : Prop :=
  pr.values fcRoom = [] ∨ (pr.recordType ≠ .GO ∧ pr.values fcReservation = []) ∨
    (pr.recordType = .GO ∧ resyncing = true ∧ pr.reservationAbsent T = true)

instance (T : TextOps) (pr : ParsedRecord) : Decidable (pr.Unkeyed T) := inferInstanceAs (Decidable (_ ∨ _))

instance (T : TextOps) (resyncing : Bool) (pr : ParsedRecord) : Decidable (pr.Missing T resyncing) :=
  inferInstanceAs (Decidable (_ ∨ _))

/-- The record was skipped and counted: no fault, no request, and nothing handed on. -/
structure Feed.Skips {δ : Type} (s : Feed δ) (o : Outcome δ) : Prop where
  goesOn : o.2 = none
  counted : o.1.link.skippedNoIdentity = s.link.skippedNoIdentity + 1
  effects : o.1.effects = s.effects
  resyncing : o.1.link.resyncing = s.link.resyncing
  runtime : o.1.runtime = s.runtime
  synced : o.1.sink.synced = s.sink.synced
  staged : o.1.sink.stageBuf = s.sink.stageBuf

section
variable {δ : Type} {T : TextOps} {pr : ParsedRecord}

lemma ParsedRecord.value_mem {code} (present : pr.values code ≠ []) : pr.value code ∈ pr.values code := by
  unfold ParsedRecord.value
  rw [List.getLast?_eq_some_getLast present, Option.getD_some]
  exact List.getLast_mem present

lemma ParsedRecord.extract_identityAbsent (h : pr.Unambiguous) :
    (∃ code, pr.extractTypedDomainFields = .error (.identityAbsent code)) ↔
      pr.values fcRoom = [] ∨ (pr.recordType ≠ .GO ∧ pr.values fcReservation = []) := by
  have once : ¬ ((pr.values fcRoom).length > 1 ∨ (pr.values fcReservation).length > 1) := by
    have room := h.room
    have reservation := h.reservation
    omega
  unfold ParsedRecord.extractTypedDomainFields
  simp only [Bool.or_eq_true, decide_eq_true_eq, if_neg once, beq_iff_eq, List.length_eq_zero_iff, Bool.and_eq_true, bne_iff_ne]
  by_cases room : pr.values fcRoom = []
  · simp [room]
  by_cases reservation : pr.values fcReservation = [] ∧ pr.recordType ≠ .GO
  · simp [room, reservation]
  rw [if_neg room, if_neg reservation]
  constructor
  · rintro ⟨code, found⟩
    split at found <;> cases found
  · rintro (absent | absent)
    · exact absurd absent room
    · exact absurd ⟨absent.2, absent.1⟩ reservation

variable {A : Adapter δ} {body : Bytes}

lemma Adapter.toEvent_of_parse (parsed : parseStrictRecord body = .ok pr) {code} :
    A.toEvent body = .error (.identityAbsent code) ↔ pr.extractTypedDomainFields = .error (.identityAbsent code) := by
  unfold Adapter.toEvent
  rw [parsed]
  cases found : pr.extractTypedDomainFields with
  | error e => simp [bind, Except.bind, found]
  | ok tf => simp [bind, Except.bind, found, pure, Except.pure]

lemma Adapter.toEvent_fields (parsed : parseStrictRecord body = .ok pr) {ev} (made : A.toEvent body = .ok ev) :
    ev.recordType = pr.recordType ∧ ev.room = pr.value fcRoom ∧ ev.reservation = pr.value fcReservation := by
  unfold Adapter.toEvent at made
  rw [parsed] at made
  cases found : pr.extractTypedDomainFields with
  | error e => simp [bind, Except.bind, found] at made
  | ok tf =>
    simp only [bind, Except.bind, found, pure, Except.pure, Except.ok.injEq] at made
    subst made
    unfold ParsedRecord.extractTypedDomainFields at found
    dsimp only at found
    split_ifs at found
    cases found
    exact ⟨rfl, rfl, rfl⟩

lemma Adapter.toEvent_blank (parsed : parseStrictRecord body = .ok pr) (unkeyed : pr.Unkeyed T)
    (there : ¬ (pr.values fcRoom = [] ∨ (pr.recordType ≠ .GO ∧ pr.values fcReservation = []))) {ev}
    (made : A.toEvent body = .ok ev) : ev.validate T = false := by
  have fields := toEvent_fields parsed made
  rw [not_or, not_and] at there
  obtain ⟨room, reservation⟩ := there
  unfold Event.validate
  rw [fields.1, fields.2.1, fields.2.2]
  rcases unkeyed with blank | ⟨stays, blank⟩
  · rw [blank _ (pr.value_mem room)]
    simp
  · rw [blank _ (pr.value_mem (reservation stays))]
    simp [stays]

end

namespace Feed

section
variable {δ : Type} {s : Feed δ} {w : Around}

lemma skips_skip : Skips s (s.skip, none) := by
  unfold skip reportSkipped recordSkipped
  dsimp only
  split <;> exact ⟨rfl, rfl, rfl, rfl, rfl, rfl, rfl⟩

lemma skips_vacant {T pr} : Skips s ((s.sawVacant T pr).skip, none) := by
  unfold sawVacant
  split
  · exact skips_skip
  · obtain ⟨goesOn, counted, effects, resyncing, runtime, synced, staged⟩ := skips_skip (s := { s with link := { s.link with
      vacantSeen := s.link.vacantSeen.insert (pr.roomOf T), vacantRecords := s.link.vacantRecords + 1 } })
    exact ⟨goesOn, counted, effects, resyncing, runtime, synced, staged⟩

lemma not_skips_fault : ¬ Skips s (s.fault w) := by
  intro skips
  have same := skips.effects
  have goesOn := skips.goesOn
  unfold fault onContinuityFault requestResync Outcome.andThen emit at same goesOn
  split_ifs at same goesOn <;> simp_all
  all_goals split_ifs at same goesOn <;> simp_all

end

variable {δ : Type} [DecidableEq δ] {A : Adapter δ} {T : RosterOps} {s : Feed δ} {w : Around} {body : Bytes} {pr : ParsedRecord}

lemma record_of_domain (domain : pr.recordType.isDomain = true) : s.record A T w body pr = s.guestRecord A T w body pr := by
  unfold record
  cases h : pr.recordType <;> simp_all [RecordType.isDomain]

/-- What becomes of a record without a usable identity. -/
inductive Unkeyed (s : Feed δ) (w : Around) (T : RosterOps) (pr : ParsedRecord) : Outcome δ → Prop where
  | skipped : pr.Missing T.toTextOps s.link.resyncing → Unkeyed s w T pr (s.skip, none)
  | vacant : pr.Missing T.toTextOps s.link.resyncing → Unkeyed s w T pr ((s.sawVacant T pr).skip, none)
  | faulted : ¬ pr.Missing T.toTextOps s.link.resyncing → Unkeyed s w T pr (s.fault w)

lemma guestRecord_unkeyed (parsed : parseStrictRecord body = .ok pr) (h : pr.Unambiguous) (unkeyed : pr.Unkeyed T.toTextOps) :
    Unkeyed s w T pr (s.guestRecord A T w body pr) := by
  unfold guestRecord
  split
  case isTrue vacant =>
    simp only [Bool.and_eq_true, beq_iff_eq] at vacant
    exact .vacant (.inr (.inr ⟨vacant.1.1, vacant.1.2, vacant.2⟩))
  case isFalse occupied =>
    simp only [Bool.and_eq_true, beq_iff_eq, and_assoc] at occupied
    by_cases absent : pr.values fcRoom = [] ∨ (pr.recordType ≠ .GO ∧ pr.values fcReservation = [])
    · obtain ⟨code, found⟩ := (pr.extract_identityAbsent h).mpr absent
      rw [(Adapter.toEvent_of_parse parsed).mpr found]
      exact .skipped (absent.imp id .inl)
    have there : ¬ pr.Missing T.toTextOps s.link.resyncing := by
      rintro (room | reservation | vacant)
      · exact absent (.inl room)
      · exact absent (.inr reservation)
      · exact occupied vacant
    cases made : A.toEvent body with
    | error e =>
      cases e with
      | malformed => exact .faulted there
      | identityAbsent code =>
        exact absurd ((pr.extract_identityAbsent h).mp ⟨code, (Adapter.toEvent_of_parse parsed).mp made⟩) absent
    | ok ev =>
      simp only [Adapter.toEvent_blank parsed unkeyed absent made, Bool.false_eq_true, if_false]
      exact .faulted there

/-- It is skipped and counted exactly if its field is missing, or it is a check-out of a sweep. -/
lemma skips_iff (parsed : parseStrictRecord body = .ok pr) (h : pr.Unambiguous) (unkeyed : pr.Unkeyed T.toTextOps) :
    Skips s (s.record A T w body pr) ↔ pr.Missing T.toTextOps s.link.resyncing := by
  rw [record_of_domain h.domain]
  have handled := guestRecord_unkeyed (A := A) (s := s) (w := w) parsed h unkeyed
  generalize s.guestRecord A T w body pr = o at handled
  cases handled with
  | skipped missing => exact iff_of_true skips_skip missing
  | vacant missing => exact iff_of_true skips_vacant missing
  | faulted there => exact iff_of_false not_skips_fault there

end Feed

/-- Every call succeeds. -/
def Around.Calm (w : Around) : Prop := ∀ c, w.ok c = true

/-- A guest record of a roster: one without a usable identity, or a valid one. -/
def Adapter.Lists {δ : Type} (A : Adapter δ) (T : TextOps) (body : Bytes) : Prop :=
  ∃ pr, parseStrictRecord body = .ok pr ∧
    ((pr.Unambiguous ∧ pr.Unkeyed T) ∨ ∃ ev, A.toEvent body = .ok ev ∧ ev.validate T = true)

/-- The identity is there and blank. -/
def blankIdentity (T : TextOps) (body : Bytes) : Bool :=
  match parseStrictRecord body with
  | .ok pr => decide (pr.Unkeyed T ∧ ¬ pr.Missing T true)
  | .error _ => false

namespace Feed

def faults {δ : Type} (s : Feed δ) : Nat := s.effects.count .continuityFault

def requests {δ : Type} (s : Feed δ) : Nat := s.effects.count .resyncRequested

/-- Between the DS of a generation and its DE. -/
structure Window {δ : Type} (g : Nat) (s : Feed δ) : Prop where
  link : s.link.resyncing = true
  begun : s.link.fin.awaitingStart = false
  sink : s.sink.resyncing = true
  generation : s.sink.resyncGen = g

/-- What a record of a sweep leaves: the window, `n` more faults and no request. -/
structure Swept {δ : Type} (g : Nat) (s : Feed δ) (n : Nat) (o : Outcome δ) : Prop where
  goesOn : o.2 = none
  window : Window g o.1
  faults : o.1.faults = s.faults + n
  requests : o.1.requests = s.requests

variable {δ : Type} {g : Nat} {s : Feed δ} {w : Around} {rev : Revision}

lemma Window.skip (h : Window g s) : Swept g s 0 (s.skip, none) := by
  unfold Feed.skip reportSkipped recordSkipped
  dsimp only
  split <;> exact ⟨rfl, ⟨h.link, h.begun, h.sink, h.generation⟩, rfl, rfl⟩

lemma Swept.of_same {t n o} (h : Swept g t n o) (faults : t.faults = s.faults) (requests : t.requests = s.requests) : Swept g s n o :=
  { h with
    faults := faults ▸ h.faults
    requests := requests ▸ h.requests }

lemma Window.vacant {T pr} (h : Window g s) : Swept g s 0 ((s.sawVacant T pr).skip, none) := by
  have same : Window g (s.sawVacant T pr) ∧ (s.sawVacant T pr).effects = s.effects := by
    unfold sawVacant
    split
    · exact ⟨h, rfl⟩
    · exact ⟨⟨h.link, h.begun, h.sink, h.generation⟩, rfl⟩
  exact same.1.skip.of_same (congrArg (List.count _) same.2) (congrArg (List.count _) same.2)

lemma Window.fault (h : Window g s) (calm : w.Calm) : Swept g s 1 (s.fault w) := by
  unfold Feed.fault onContinuityFault Outcome.andThen
  simp only [calm .markGapAndRequireResync, if_true, emit, h.link]
  refine ⟨rfl, ⟨h.link, h.begun, h.sink, h.generation⟩, ?_, ?_⟩
  · simp [faults]
  · simp [requests]

/-- No resync is requested inside a window, and none is given up. -/
lemma Window.dueResyncs (h : Window g s) : s.dueResyncs rev w = (s, none) := by
  have operator : s.operatorResync w = (s, none) := by simp [operatorResync, h.link]
  have periodic : s.periodicResync rev w = (s, none) := by simp [periodicResync, h.link]
  have financial : s.financialResync w = (s, none) := by
    have answered : s.link.fin.unanswered w.now = (s.link.fin, false) := by simp [FinResyncScheduler.unanswered, h.begun]
    have none : s.link.fin.shouldRequest w.now true w.financialDue = (s.link.fin, false) := rfl
    have kept : s.giveUpFinancial w = s := by simp [giveUpFinancial, answered]
    have unwanted : s.wantsFinancial w = (s, false) := by
      unfold wantsFinancial
      rw [h.link, none]
    unfold financialResync
    rw [kept, unwanted]
    rfl
  unfold Feed.dueResyncs
  rw [operator]
  change Outcome.andThen (s.periodicResync rev w) _ = _
  rw [periodic]
  exact financial

lemma Window.setSteady (h : Window g s) : Window g s.setSteady := ⟨h.link, h.begun, h.sink, h.generation⟩

variable [DecidableEq δ] {A : Adapter δ} {T : RosterOps} {body : Bytes} {pr : ParsedRecord}

lemma step_frame (parsed : parseStrictRecord body = .ok pr) : s.step A T rev w (.frame body) =
    Outcome.andThen (s.setSteady.dueResyncs rev w) fun s => s.record A T w body pr := by
  change s.setSteady.frame A T rev w body = _
  unfold frame
  rw [parsed]

lemma Window.step (h : Window g s) (parsed : parseStrictRecord body = .ok pr) :
    s.step A T rev w (.frame body) = s.setSteady.record A T w body pr := by
  rw [step_frame parsed, h.setSteady.dueResyncs]
  rfl

lemma flushStaged_calm (calm : w.Calm) (step : ServeStep) : ∃ t, s.flushStaged w step = (t, none) ∧ t.link = s.link ∧
    t.sink.resyncing = s.sink.resyncing ∧ t.sink.resyncGen = s.sink.resyncGen ∧ t.effects = s.effects := by
  unfold flushStaged
  dsimp only
  split
  · exact ⟨s, rfl, rfl, rfl, rfl, rfl⟩
  · rw [if_pos (calm _)]
    exact ⟨_, rfl, rfl, rfl, rfl, rfl⟩

lemma Window.flushStaged (h : Window g s) (calm : w.Calm) {step} : Swept g s 0 (s.flushStaged w step) := by
  obtain ⟨t, flushed, link, resyncing, generation, effects⟩ := flushStaged_calm (s := s) calm step
  rw [flushed]
  refine ⟨rfl, ⟨?_, ?_, resyncing.trans h.sink, generation.trans h.generation⟩, ?_, ?_⟩
  · exact (congrArg _ link).trans h.link
  · exact (congrArg (·.fin.awaitingStart) link).trans h.begun
  · exact congrArg (List.count _) effects
  · exact congrArg (List.count _) effects

lemma Window.onDomainEvent (h : Window g s) (calm : w.Calm) {ev} : Swept g s 0 (s.onDomainEvent w ev) := by
  have buffered : Window g (s.buffer ev) := ⟨h.link, h.begun, h.sink, h.generation⟩
  unfold Feed.onDomainEvent
  rw [if_pos h.sink]
  split
  · exact (buffered.flushStaged calm).of_same rfl rfl
  · exact ⟨rfl, buffered, rfl, rfl⟩

omit [DecidableEq δ] in
lemma Window.sawOccupied (h : Window g s) (ev : Event δ) :
    Window g (s.sawOccupied T ev) ∧ (s.sawOccupied T ev).effects = s.effects := by
  unfold Feed.sawOccupied
  split
  · exact ⟨⟨h.link, h.begun, h.sink, h.generation⟩, rfl⟩
  · exact ⟨h, rfl⟩

lemma Window.admitEvent (h : Window g s) (calm : w.Calm) {ev} : Swept g s 0 (s.admitEvent T w ev) := by
  have shown : Window g (s.emit (.observedGuest ev.recordType ev.reservation ev.room)) :=
    ⟨h.link, h.begun, h.sink, h.generation⟩
  obtain ⟨seen, same⟩ := shown.sawOccupied (T := T) ev
  refine (seen.onDomainEvent calm).of_same ?_ ?_
  · rw [faults, same]
    simp [faults, emit]
  · rw [requests, same]
    simp [requests, emit]

omit [DecidableEq δ] in
lemma blankIdentity_of_valid (parsed : parseStrictRecord body = .ok pr) {ev} (made : A.toEvent body = .ok ev)
    (valid : ev.validate T.toTextOps = true) : blankIdentity T.toTextOps body = false := by
  unfold blankIdentity
  rw [parsed]
  simp only [decide_eq_false_iff_not, not_and, not_not]
  intro unkeyed
  by_cases absent : pr.values fcRoom = [] ∨ (pr.recordType ≠ .GO ∧ pr.values fcReservation = [])
  · exact absent.imp id .inl
  · rw [Adapter.toEvent_blank parsed unkeyed absent made] at valid
    cases valid

lemma Window.valid (h : Window g s) (calm : w.Calm) {ev} (made : A.toEvent body = .ok ev)
    (valid : ev.validate T.toTextOps = true) : Swept g s 0 (s.guestRecord A T w body pr) := by
  unfold Feed.guestRecord
  split
  · exact h.vacant
  · simp only [made, valid, if_true]
    exact h.admitEvent calm

omit [DecidableEq δ] in
lemma Window.unkeyed (h : Window g s) (calm : w.Calm) {o} (handled : Unkeyed s w T pr o) :
    Swept g s (if pr.Missing T.toTextOps true then 0 else 1) o := by
  cases handled with
  | skipped missing =>
    rw [h.link] at missing
    rw [if_pos missing]
    exact h.skip
  | vacant missing =>
    rw [h.link] at missing
    rw [if_pos missing]
    exact h.vacant
  | faulted there =>
    rw [h.link] at there
    rw [if_neg there]
    exact h.fault calm

lemma Window.listed (rev : Revision) (h : Window g s) (calm : w.Calm) (lists : A.Lists T.toTextOps body) :
    Swept g s (if blankIdentity T.toTextOps body then 1 else 0) (s.step A T rev w (.frame body)) := by
  obtain ⟨pr, parsed, kind⟩ := lists
  have opened := h.setSteady
  have swept : Swept g s.setSteady (if blankIdentity T.toTextOps body then 1 else 0) (s.setSteady.record A T w body pr) := by
    rcases kind with ⟨once, unkeyed⟩ | ⟨ev, made, valid⟩
    · rw [record_of_domain once.domain]
      convert opened.unkeyed calm (guestRecord_unkeyed (A := A) parsed once unkeyed) using 1
      unfold blankIdentity
      rw [parsed]
      by_cases missing : pr.Missing T.toTextOps true
      · simp [missing]
      · simp [missing, unkeyed]
    · have domain : pr.recordType.isDomain = true := by
        rw [← (Adapter.toEvent_fields parsed made).1]
        unfold Event.validate at valid
        simp only [Bool.and_eq_true] at valid
        exact valid.1.1.1.1
      rw [record_of_domain domain, blankIdentity_of_valid parsed made valid]
      exact opened.valid calm made valid
  rw [h.step parsed]
  exact swept.of_same rfl rfl

/-- The frames of a sweep, each with what holds around it. -/
def frames (bodies : List (Around × Bytes)) : List (Around × Inbound) := bodies.map fun f => (f.1, .frame f.2)

lemma Window.run {bodies} (rev : Revision) (h : Window g s)
    (listed : ∀ f ∈ bodies, f.1.Calm ∧ A.Lists T.toTextOps f.2) (rest : List (Around × Inbound)) :
    ∃ t, Swept g s (bodies.countP fun f => blankIdentity T.toTextOps f.2) (t, none) ∧
      s.run A T rev (frames bodies ++ rest) = t.run A T rev rest := by
  induction bodies generalizing s with
  | nil => exact ⟨s, ⟨rfl, h, rfl, rfl⟩, rfl⟩
  | cons f bodies ih =>
    obtain ⟨calm, lists⟩ := listed f List.mem_cons_self
    have first := h.listed rev calm lists
    obtain ⟨t, swept, later⟩ := ih first.window fun f hf => listed f (List.mem_cons_of_mem _ hf)
    refine ⟨t, ⟨rfl, swept.window, ?_, swept.requests.trans first.requests⟩, ?_⟩
    · rw [List.countP_cons]
      have := swept.faults
      have := first.faults
      omega
    · change Outcome.andThen (s.step A T rev f.1 (.frame f.2)) (fun s => s.run A T rev (frames bodies ++ rest)) = _
      rw [show s.step A T rev f.1 (.frame f.2) = ((s.step A T rev f.1 (.frame f.2)).1, none) from Prod.ext rfl first.goesOn]
      exact later

omit [DecidableEq δ] in
lemma requestResync_calm (calm : w.Calm) : ∃ t, s.requestResync w = (t, none) ∧ t.runtime = s.runtime := by
  unfold requestResync
  rw [if_pos (calm _)]
  exact ⟨_, rfl, rfl⟩

omit [DecidableEq δ] in
lemma dueResyncs_calm (rev : Revision) (calm : w.Calm) : ∃ t, s.dueResyncs rev w = (t, none) ∧ t.runtime = s.runtime := by
  obtain ⟨t₁, operator, same₁⟩ : ∃ t, s.operatorResync w = (t, none) ∧ t.runtime = s.runtime := by
    unfold operatorResync
    split
    · exact requestResync_calm calm
    · exact ⟨s, rfl, rfl⟩
  obtain ⟨t₂, periodic, same₂⟩ : ∃ t, t₁.periodicResync rev w = (t, none) ∧ t.runtime = t₁.runtime := by
    unfold periodicResync
    split
    · exact requestResync_calm calm
    · exact ⟨t₁, rfl, rfl⟩
  obtain ⟨t₃, financial, same₃⟩ : ∃ t, t₂.financialResync w = (t, none) ∧ t.runtime = t₂.runtime := by
    unfold financialResync
    dsimp only
    split
    · obtain ⟨t, requested, same⟩ := requestResync_calm (s := ((t₂.giveUpFinancial w).wantsFinancial w).1) calm
      rw [requested]
      exact ⟨_, rfl, same⟩
    · exact ⟨_, rfl, rfl⟩
  refine ⟨t₃, ?_, same₃.trans (same₂.trans same₁)⟩
  unfold Feed.dueResyncs
  rw [operator]
  change Outcome.andThen (t₁.periodicResync rev w) _ = _
  rw [periodic]
  exact financial

lemma window_of_ds (rev : Revision) (calm : w.Calm) (parsed : parseStrictRecord body = .ok pr) (ds : pr.recordType = .DS) :
    ∃ t, s.step A T rev w (.frame body) = (t, none) ∧ Window (s.runtime.resyncGenerationSeq + 1) t := by
  obtain ⟨t, due, same⟩ := dueResyncs_calm (s := s.setSteady) rev calm
  have turn : s.step A T rev w (.frame body) = t.record A T w body pr := by
    rw [step_frame parsed, due]
    rfl
  have seq : t.runtime.resyncGenerationSeq = s.runtime.resyncGenerationSeq := congrArg _ same
  rw [turn]
  unfold record resyncStart onResyncStart
  rw [ds]
  simp only [calm .allocateResyncGeneration, calm .updateSync, if_true, seq]
  exact ⟨_, rfl, rfl, rfl, rfl, rfl⟩

omit [DecidableEq δ] in
lemma afterPublish_keeps : (s.afterPublish w).runtime.publishedResyncGeneration = s.runtime.publishedResyncGeneration ∧
    (s.afterPublish w).runtime.syncStatus = s.runtime.syncStatus ∧ (s.afterPublish w).faults = s.faults ∧
    (s.afterPublish w).requests = s.requests := by
  unfold afterPublish
  cases s.sink.coverage <;> dsimp only <;> split_ifs <;> simp [emit, faults, requests]

lemma onResyncComplete_calm (sink : s.sink.resyncing = true) (generation : s.sink.resyncGen = g) (pos : g ≠ 0) (calm : w.Calm) :
    ∃ t, s.onResyncComplete w = (t, none) ∧ t.runtime.publishedResyncGeneration = some g ∧ t.runtime.syncStatus = .inSync ∧
      t.faults = s.faults ∧ t.requests = s.requests := by
  obtain ⟨t, flushed, link, resyncing, generation', effects⟩ := flushStaged_calm (s := s) calm .publishResync
  have open' : ¬ ((!s.sink.resyncing || s.sink.resyncGen == 0) = true) := by simp [sink, generation, pos]
  unfold onResyncComplete
  rw [if_neg open', flushed]
  simp only [Outcome.andThen, calm .publishResyncGeneration, if_true]
  obtain ⟨published, status, faults', requests'⟩ := afterPublish_keeps (w := w) (s := ({ t with
    runtime := { t.runtime with
      publishedResyncGeneration := some t.sink.resyncGen, syncStatus := .inSync, continuityStatus := .continuous }
    sink := { t.sink with resyncing := false, synced := true } } : Feed δ).emit (.published t.sink.resyncGen))
  refine ⟨_, rfl, published.trans ?_, status, faults'.trans ?_, requests'.trans ?_⟩
  · exact congrArg some (generation'.trans generation)
  · simp [emit, faults, effects]
  · simp [emit, requests, effects]

lemma Window.published (rev : Revision) (h : Window g s) (pos : g ≠ 0) (calm : w.Calm) (parsed : parseStrictRecord body = .ok pr)
    (de : pr.recordType = .DE) :
    ∃ t, s.step A T rev w (.frame body) = (t, none) ∧ t.runtime.publishedResyncGeneration = some g ∧
      t.runtime.syncStatus = .inSync ∧ t.faults = s.faults ∧ t.requests = s.requests := by
  obtain ⟨u, ended⟩ : ∃ u : Feed δ, u = (let t := s.setSteady.recordCoverage
    if t.link.skippedNoIdentity ≠ t.link.lastReportedSkipped then t.reportSkipped else t) := ⟨_, rfl⟩
  have kept : u.sink.resyncing = s.sink.resyncing ∧ u.sink.resyncGen = s.sink.resyncGen ∧ u.effects = s.effects := by
    rw [ended]
    unfold recordCoverage reportSkipped recordSkipped
    dsimp only
    split_ifs <;> exact ⟨rfl, rfl, rfl⟩
  have turn : s.step A T rev w (.frame body) = (u.closeWindow w).onResyncComplete w := by
    rw [h.step parsed]
    unfold record resyncEnd
    rw [de, ended]
  obtain ⟨t, complete, published, status, faults, requests⟩ := onResyncComplete_calm (s := u.closeWindow w) (w := w)
    (kept.1.trans h.sink) (kept.2.1.trans h.generation) pos calm
  refine ⟨t, turn.trans complete, published, status, faults.trans ?_, requests.trans ?_⟩
  · exact congrArg (List.count _) kept.2.2
  · exact congrArg (List.count _) kept.2.2

end Feed

/-- For every adapter, text operations and revision: a record without a usable identity is skipped and counted, with no fault and
no request, exactly if its field is missing or it is a check-out of a sweep; and every sweep of such records and valid ones
completes and is published, without a fault or a request exactly if none of its records has an identity that is there and
blank. -/
theorem unkeyed_records_skipped_iff {δ : Type} [DecidableEq δ] (A : Adapter δ) (T : RosterOps) (rev : Revision) :
    (∀ (s : Feed δ) (w : Around) (body : Bytes) (pr : ParsedRecord), parseStrictRecord body = .ok pr → pr.Unambiguous →
      pr.Unkeyed T.toTextOps → (s.Skips (s.record A T w body pr) ↔ pr.Missing T.toTextOps s.link.resyncing)) ∧
    ∀ (s : Feed δ) (ds de : Around × Bytes) (bodies : List (Around × Bytes)), ds.1.Calm → de.1.Calm →
      (parseStrictRecord ds.2).toOption.map (·.recordType) = some .DS →
      (parseStrictRecord de.2).toOption.map (·.recordType) = some .DE →
      (∀ f ∈ bodies, f.1.Calm ∧ A.Lists T.toTextOps f.2) →
      ∃ opened closed, s.step A T rev ds.1 (.frame ds.2) = (opened, none) ∧
        opened.run A T rev (Feed.frames (bodies ++ [de])) = (closed, none) ∧
        closed.runtime.publishedResyncGeneration = some (s.runtime.resyncGenerationSeq + 1) ∧
        closed.runtime.syncStatus = .inSync ∧
        ((closed.faults = opened.faults ∧ closed.requests = opened.requests) ↔
          ∀ f ∈ bodies, ∀ pr, parseStrictRecord f.2 = .ok pr → pr.Unkeyed T.toTextOps → pr.Missing T.toTextOps true) := by
  refine ⟨fun s w body pr parsed once unkeyed => Feed.skips_iff parsed once unkeyed, ?_⟩
  intro s ds de bodies calmDS calmDE isDS isDE listed
  obtain ⟨prDS, parsedDS, typeDS⟩ : ∃ pr, parseStrictRecord ds.2 = .ok pr ∧ pr.recordType = .DS := by
    cases parsed : parseStrictRecord ds.2 with
    | error e => simp [parsed, Except.toOption] at isDS
    | ok pr => exact ⟨pr, rfl, by simpa [parsed, Except.toOption] using isDS⟩
  obtain ⟨prDE, parsedDE, typeDE⟩ : ∃ pr, parseStrictRecord de.2 = .ok pr ∧ pr.recordType = .DE := by
    cases parsed : parseStrictRecord de.2 with
    | error e => simp [parsed, Except.toOption] at isDE
    | ok pr => exact ⟨pr, rfl, by simpa [parsed, Except.toOption] using isDE⟩
  obtain ⟨opened, started, window⟩ := Feed.window_of_ds (A := A) (T := T) (s := s) rev calmDS parsedDS typeDS
  obtain ⟨t, swept, ran⟩ := window.run rev listed [(de.1, .frame de.2)]
  obtain ⟨closed, ended, published, status, faults, requests⟩ := swept.window.published (A := A) (T := T) rev
    (Nat.succ_ne_zero _) calmDE parsedDE typeDE
  refine ⟨opened, closed, started, ?_, published, status, ?_⟩
  · have whole : Feed.frames (bodies ++ [de]) = Feed.frames bodies ++ [(de.1, .frame de.2)] := by simp [Feed.frames]
    rw [whole, ran]
    simp only [Feed.run, ended, Outcome.andThen]
  · have count := swept.faults
    have asked := swept.requests
    rw [faults, requests, asked, count]
    have blank : (bodies.countP fun f => blankIdentity T.toTextOps f.2) = 0 ↔
        ∀ f ∈ bodies, ∀ pr, parseStrictRecord f.2 = .ok pr → pr.Unkeyed T.toTextOps → pr.Missing T.toTextOps true := by
      rw [List.countP_eq_zero]
      refine forall₂_congr fun f hf => ?_
      obtain ⟨pr, parsed, -⟩ := (listed f hf).2
      simp [blankIdentity, parsed]
    rw [← blank]
    omega

/-- Rooms counted as they are written. -/
def asciiRoster : RosterOps := { asciiText with roomKey := fun s => s }

def newLink : Feed Bytes := .start ⟨7, none, .inSync, .continuous, [], [], []⟩

/-- Nothing fails, and no resync is due. -/
def quiet : Around := ⟨0, false, false, []⟩

def everyTenMinutes : Revision := ⟨90000000000, 600000000000⟩

/-- A room in use by the house, listed without a reservation. -/
def houseUse : Bytes := "GI|RN900|GNHOUSE|".toList

/-- The same with the reservation field there and empty. -/
def houseUseBlank : Bytes := "GI|RN900|G#|GNHOUSE|".toList

lemma houseUse_parsed : parseStrictRecord houseUse =
    .ok ⟨.GI, [⟨"RN".toList, "900".toList⟩, ⟨"GN".toList, "HOUSE".toList⟩]⟩ := by decide +kernel

lemma checkIn_lists : plainAdapter.Lists asciiRoster.toTextOps (checkIn "101") := by
  obtain ⟨ev, made, valid, -⟩ := checkIn_wellFormed (.inl rfl)
  obtain ⟨pr, -, parsed, -⟩ := plainAdapter.toEvent_ok made
  exact ⟨pr, parsed, .inr ⟨ev, made, valid⟩⟩

/-- The house's room is skipped, and the roster with it and a guest is published without a fault. -/
theorem house_use_skipped :
    newLink.Skips (newLink.record plainAdapter asciiRoster quiet houseUse
      ⟨.GI, [⟨"RN".toList, "900".toList⟩, ⟨"GN".toList, "HOUSE".toList⟩]⟩) ∧
    ∃ opened closed, newLink.step plainAdapter asciiRoster everyTenMinutes quiet (.frame "DS|".toList) = (opened, none) ∧
      opened.run plainAdapter asciiRoster everyTenMinutes
        (Feed.frames ([(quiet, houseUse), (quiet, checkIn "101")] ++ [(quiet, "DE|".toList)])) = (closed, none) ∧
      closed.runtime.publishedResyncGeneration = some 8 ∧ closed.faults = opened.faults ∧ closed.requests = opened.requests := by
  obtain ⟨record, roster⟩ := unkeyed_records_skipped_iff plainAdapter asciiRoster everyTenMinutes
  refine ⟨(record newLink quiet houseUse _ houseUse_parsed ⟨rfl, by decide, by decide⟩ (by decide)).mpr (by decide), ?_⟩
  obtain ⟨opened, closed, started, ran, published, -, silent⟩ := roster newLink (quiet, "DS|".toList) (quiet, "DE|".toList)
    [(quiet, houseUse), (quiet, checkIn "101")] (fun _ => rfl) (fun _ => rfl) (by decide +kernel) (by decide +kernel) (by
      intro f hf
      rcases List.mem_cons.mp hf with rfl | hf
      · exact ⟨fun _ => rfl, _, houseUse_parsed, .inl ⟨⟨rfl, by decide, by decide⟩, by decide⟩⟩
      · rw [List.mem_singleton.mp hf]
        exact ⟨fun _ => rfl, checkIn_lists⟩)
  obtain ⟨faults, requests⟩ := silent.mpr (by
    intro f hf pr parsed unkeyed
    rcases List.mem_cons.mp hf with rfl | hf
    · rw [houseUse_parsed] at parsed
      cases parsed
      decide
    · have keyed : blankIdentity asciiRoster.toTextOps (checkIn "101") = false := by decide +kernel
      rw [List.mem_singleton.mp hf] at parsed
      simpa [blankIdentity, parsed, unkeyed] using keyed)
  exact ⟨opened, closed, started, ran, published, faults, requests⟩

/-- With the field there and empty, the record is a continuity fault, and outside a sweep a resync is requested for it: the roster
it asks for holds the record again. -/
theorem blank_reservation_faults :
    ∃ pr, parseStrictRecord houseUseBlank = .ok pr ∧ pr.Unambiguous ∧ pr.Unkeyed asciiRoster.toTextOps ∧
      (∃ swept, newLink.run plainAdapter asciiRoster everyTenMinutes
        (Feed.frames [(quiet, "DS|".toList), (quiet, houseUseBlank), (quiet, "DE|".toList)]) = (swept, none) ∧
        swept.faults = 1 ∧ swept.link.resyncing = false ∧
        ∃ live, swept.run plainAdapter asciiRoster everyTenMinutes (Feed.frames [(quiet, houseUseBlank)]) = (live, none) ∧
          live.faults = 2 ∧ live.requests = swept.requests + 1 ∧ live.sink.synced = false) := by
  refine ⟨_, rfl, ⟨rfl, by decide, by decide⟩, by decide, _, rfl, by decide +kernel, by decide +kernel, _, rfl, by decide +kernel,
    by decide +kernel, by decide +kernel⟩

end StayConnect.Pms
