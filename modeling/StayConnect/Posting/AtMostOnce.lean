import StayConnect.Posting.Ledger

/-!
# No double charge

Over every interleaving of `RunOnce` passes, crashes, recovery runs and operator actions: two attempts of a
posting whose bytes may have left have a CONFIRM_NOT_POSTED_RETRY decision between them, and a QUEUED row
has only attempts that provably never left or were followed by such a decision. `Inv` adds to the ledger
what the passes in progress own: the row of an open claim, and the attempt a pass is about to send or
settle, which nobody else settles as NOT_SENT.
-/

namespace StayConnect.Posting
open StayConnect.Transition

/-- The attempt a pass has committed and not settled yet. -/
def Phase.flight : Phase → Option Claim
  | .attempted c _ => some c
  | .answered c _ => some c
  | _ => none

/-- The attempt in flight of which no byte has left. -/
def Phase.unsent : Phase → Option Claim
  | .attempted c _ => some c
  | .answered c (.notTransmitted _) => some c
  | _ => none

variable {c : Claim} {db db' : Db} {log : List Event}

lemma Phase.flight_of_unsent {ph : Phase} (h : ph.unsent = some c) : ph.flight = some c := by
  cases ph with
  | attempted => exact h
  | answered c res => cases res <;> first | exact h | cases h
  | idle | claimed => cases h

/-- The tables, the passes in progress and the wire agree. -/
structure Inv (s : State) : Prop where
  ledger : Ledger s.db s.log
  claims : ∀ w c, s.worker w = .claimed c →
    s.rowLock c.posting = some w ∧ ∃ r ∈ s.db.outbox, r.posting = c.posting ∧ r.state = .queued
  flights : ∀ w c, (s.worker w).flight = some c → ∃ a ∈ s.db.attempts,
    a.posting = c.posting ∧ a.attemptNo = c.attemptNo ∧ (a.outcome = .sending ∨ a.outcome = .unknown)
  apart : ∀ w w' c c', (s.worker w).flight = some c → (s.worker w').flight = some c' →
    c.posting = c'.posting → c.attemptNo = c'.attemptNo → w = w'
  unsent : ∀ w c, (s.worker w).unsent = some c → (c.posting, c.attemptNo) ∉ s.wire
  wired : ∀ k ∈ s.wire, ∃ a ∈ s.db.attempts,
    a.posting = k.1 ∧ a.attemptNo = k.2 ∧ a.outcome ≠ .notSent
  once : s.wire.Nodup

/-- The attempts of `db` are still there in `db'`, with their outcome or concluded UNKNOWN. -/
def Kept (db db' : Db) : Prop :=
  ∀ a ∈ db.attempts, ∃ a' ∈ db'.attempts, a'.posting = a.posting ∧ a'.attemptNo = a.attemptNo ∧
    (a'.outcome = a.outcome ∨ a'.outcome = .unknown)

/-- The rows of other postings are untouched. -/
def RowsOf (p : Nat) (db db' : Db) : Prop :=
  ∀ r ∈ db.outbox, r.posting ≠ p → r ∈ db'.outbox

/-- The attempt of the claim is there and may still be settled. -/
def Claim.Live (c : Claim) (db : Db) : Prop :=
  ∃ a ∈ db.attempts, a.posting = c.posting ∧ a.attemptNo = c.attemptNo ∧ (a.outcome = .sending ∨ a.outcome = .unknown)

lemma Kept.of_eq (h : db'.attempts = db.attempts) : Kept db db' :=
  fun a ha => ⟨a, h ▸ ha, rfl, rfl, .inl rfl⟩

namespace Db

variable {db db' : Db}

lemma updateOutbox_attempts {rc p cond f} (h : db.updateOutbox rc p cond f = some db') : db'.attempts = db.attempts := by
  rw [updateOutbox_eq h]

lemma updateOutbox_keeps {rc p cond f} (h : db.updateOutbox rc p cond f = some db') : Kept db db' ∧ RowsOf p db db' := by
  refine ⟨.of_eq (updateOutbox_attempts h), fun r hr ne => ?_⟩
  rw [updateOutbox_eq h]
  exact List.mem_map.mpr ⟨r, hr, by simp [ne]⟩

lemma settleAttempt_outbox {p n o as} (h : db.settleAttempt p n o as = some db') : db'.outbox = db.outbox := by
  rw [(settleAttempt_eq h).2]

lemma settleAttempt_mem {p n o as} (h : db.settleAttempt p n o as = some db') {a} (ha : a ∈ db.attempts) :
    ∃ a' ∈ db'.attempts, a'.posting = a.posting ∧ a'.attemptNo = a.attemptNo ∧
      (a'.outcome = a.outcome ∨ (a.posting = p ∧ a.attemptNo = n ∧ a'.outcome = o)) := by
  rw [(settleAttempt_eq h).2]
  by_cases hit : a.posting = p ∧ a.attemptNo = n
  · exact ⟨_, List.mem_map.mpr ⟨a, ha, if_pos (by simpa using hit)⟩, rfl, rfl,
      .inr ⟨hit.1, hit.2, rfl⟩⟩
  · exact ⟨a, List.mem_map.mpr ⟨a, ha, if_neg (by simpa using hit)⟩, rfl, rfl, .inl rfl⟩

/-- The shape of `settle`: the attempt's outcome, then its outbox row. -/
lemma settle_cases {c res unproven} (h : db.settle c res unproven = some db') :
    ∃ o as mid, db.settleAttempt c.posting c.attemptNo o as = some mid ∧
      ((o ≠ .notSent ∧ ((∃ t, res = .answered t) ∨ res = .inconclusive) ∧
          ∃ st, st ≠ .queued ∧ mid.setState c.posting st = some db') ∨
        (o = .notSent ∧ ∃ reason, res = .notTransmitted reason ∧
          (mid.setState c.posting .queued = some db' ∨ mid.defer c.posting .notSent reason = some db'))) := by
  unfold settle at h
  cases res with
  | answered t =>
    simp only at h
    split at h
    all_goals
      obtain ⟨mid, h1, h2⟩ := Option.bind_eq_some_iff.mp h
      exact ⟨_, _, mid, h1, .inl ⟨by simp, .inl ⟨t, rfl⟩, _, by simp, h2⟩⟩
  | notTransmitted reason =>
    obtain ⟨mid, h1, h2⟩ := Option.bind_eq_some_iff.mp h
    refine ⟨_, _, mid, h1, .inr ⟨rfl, reason, rfl, ?_⟩⟩
    split at h2
    · exact .inl h2
    · exact .inr h2
  | inconclusive =>
    obtain ⟨mid, h1, h2⟩ := Option.bind_eq_some_iff.mp h
    exact ⟨_, _, mid, h1, .inl ⟨by simp, .inr rfl, _, by simp, h2⟩⟩

lemma concludeClaim_rows {c v} (h : db.concludeClaim c v = some db') : RowsOf c.posting db db' := by
  intro r hr ne
  have hr' : r ∈ (db.claimRow c.posting).outbox := List.mem_map.mpr ⟨r, hr, by simp [ne]⟩
  unfold concludeClaim at h
  cases v with
  | proceed =>
    obtain ⟨-, review, rfl, -⟩ := insertAttempt_eq h
    exact hr'
  | dark | decline => exact (updateOutbox_keeps h).2 r hr' ne
  | abortBeforeSend =>
    simp only at h
    split at h <;> exact (updateOutbox_keeps h).2 r hr' ne

lemma concludeClaim_attempts {c v} (hv : v ≠ .proceed) (h : db.concludeClaim c v = some db') : db'.attempts = db.attempts := by
  unfold concludeClaim at h
  cases v with
  | proceed => exact absurd rfl hv
  | dark | decline => exact (updateOutbox_attempts h).trans rfl
  | abortBeforeSend =>
    simp only at h
    split at h <;> exact (updateOutbox_attempts h).trans rfl

lemma concludeClaim_proceed {c} (h : db.concludeClaim c .proceed = some db') :
    db.attemptRetryGate c.posting c.attemptNo = true ∧ ∃ a : Attempt, a.posting = c.posting ∧
      a.attemptNo = c.attemptNo ∧ a.outcome = .sending ∧ db'.attempts = db.attempts ++ [a] := by
  obtain ⟨gate, review, rfl, -⟩ := insertAttempt_eq h
  exact ⟨gate, _, rfl, rfl, rfl, rfl⟩

end Db

/-- A flight settled as NOT_SENT was the last attempt, so its posting is released. -/
lemma Ledger.released_of_notSent {mid} (L : Ledger db log) {a as} (ha : a ∈ db.attempts) (live : a.outcome = .sending ∨ a.outcome = .unknown)
    (h : db.settleAttempt a.posting a.attemptNo .notSent as = some mid) : Released mid log a.posting := by
  obtain ⟨oneway, e⟩ := Db.settleAttempt_eq h
  have sending : a.outcome = .sending := by
    rcases oneway a ha rfl rfl with s | s
    · exact s
    · rcases live with l | l <;> rw [l] at s <;> cases s
  subst e
  intro b' hb' ep
  obtain ⟨b, hb, rfl⟩ := List.mem_map.mp hb'
  by_cases hit : b.posting = a.posting ∧ b.attemptNo = a.attemptNo
  · rw [if_pos (by simpa using hit)]
    exact .inl rfl
  rw [if_neg (by simpa using hit)] at ep ⊢
  rcases Nat.lt_trichotomy b.attemptNo a.attemptNo with lt | eq | gt
  · obtain ⟨-, done⟩ := L.settled b hb a ha ep lt
    rw [ep] at done
    exact done.imp_right RetryBetween.after
  · exact absurd ⟨ep, eq⟩ hit
  · -- a later attempt would have found this one settled
    exact absurd sending (L.settled a ha b hb ep.symm gt).1

lemma Ledger.settle (L : Ledger db log) {res unproven a} (ha : a ∈ db.attempts)
    (ep : a.posting = c.posting) (en : a.attemptNo = c.attemptNo) (live : a.outcome = .sending ∨ a.outcome = .unknown)
    (h : db.settle c res unproven = some db') : Ledger db' log := by
  obtain ⟨o, as, mid, h1, ⟨-, -, st, nq, h2⟩ | ⟨rfl, reason, -, h2⟩⟩ := Db.settle_cases h
  · exact (L.settleAttempt h1).setState (fun e => absurd e nq) h2
  have rel : Released mid log c.posting := by
    rw [← ep]
    rw [← ep, ← en] at h1
    exact L.released_of_notSent ha live h1
  rcases h2 with h2 | h2
  · exact (L.settleAttempt h1).setState (fun _ => rel) h2
  · exact (L.settleAttempt h1).defer rel h2

lemma Ledger.allocatePNumber (L : Ledger db log) (iface : Nat) : Ledger (db.allocatePNumber iface) log :=
  ⟨L.recorded, L.posted, L.unique, L.settled, L.authorized, L.queued⟩

lemma Ledger.concludeClaim (L : Ledger db log) {v} (row : ∃ r ∈ db.outbox, r.posting = c.posting ∧ r.state = .queued)
    (h : db.concludeClaim c v = some db') : Ledger db' (if v = .proceed then log ++ [.attempt c.posting c.attemptNo] else log) := by
  obtain ⟨r, hr, er, st⟩ := row
  have rel : Released (db.claimRow c.posting) log c.posting := er ▸ L.queued r hr st
  have T := L.claimRow c.posting
  unfold Db.concludeClaim at h
  cases v with
  | proceed =>
    rw [if_pos rfl]
    refine (T.allocatePNumber c.iface).insertAttempt ?_ ?_ h
    · exact ⟨_, List.mem_map_of_mem hr, by simp [er]⟩
    · intro r' hr' ep
      obtain ⟨r0, -, rfl⟩ := List.mem_map.mp hr'
      by_cases hit : r0.posting = c.posting
      · simp [hit]
      · simp [hit] at ep
  | dark => exact T.setState (fun _ => rel) h
  | decline code => exact T.defer rel h
  | abortBeforeSend reason =>
    simp only at h
    split at h
    · exact T.setState (by simp) h
    · exact T.updateOutbox h (fun _ => rfl) nofun

namespace Inv

variable {s t : State} {db' : Db} {w : Nat} {c : Claim}

section
variable (I : Inv s)
include I

lemma withDb {log'} (L : Ledger db' log') (kept : Kept s.db db') (rows : ∀ w c, s.worker w = .claimed c →
      ∃ r ∈ db'.outbox, r.posting = c.posting ∧ r.state = .queued) : Inv { s with db := db', log := log' } where
  ledger := L
  claims w c h := ⟨(I.claims w c h).1, rows w c h⟩
  flights w c h := by
    obtain ⟨a, ha, ep, en, live⟩ := I.flights w c h
    obtain ⟨a', ha', ep', en', eo⟩ := kept a ha
    refine ⟨a', ha', ep'.trans ep, en'.trans en, ?_⟩
    rcases eo with eo | eo
    · rw [eo]
      exact live
    · exact .inr eo
  apart := I.apart
  unsent := I.unsent
  wired k hk := by
    obtain ⟨a, ha, ep, en, sent⟩ := I.wired k hk
    obtain ⟨a', ha', ep', en', eo⟩ := kept a ha
    refine ⟨a', ha', ep'.trans ep, en'.trans en, ?_⟩
    rcases eo with eo | eo
    · rw [eo]
      exact sent
    · rw [eo]
      simp
  once := I.once

lemma claimed_row {p} (free : (s.rowLock p).isNone = true) (rows : RowsOf p s.db db') (h : s.worker w = .claimed c) :
    ∃ r ∈ db'.outbox, r.posting = c.posting ∧ r.state = .queued := by
  obtain ⟨lock, r, hr, er, st⟩ := I.claims w c h
  refine ⟨r, rows r hr fun e => ?_, er, st⟩
  rw [← er, e] at lock
  simp [lock] at free

lemma onRow {s' p f} (hf : ∀ db', f s.db = some db' → Ledger db' s.log ∧ Kept s.db db' ∧ RowsOf p s.db db')
    (h : s.onRow p f = some s') : Inv s' := by
  unfold State.onRow at h
  split at h
  swap
  · cases h
  rename_i free
  obtain ⟨db', hdb, rfl⟩ := Option.map_eq_some_iff.mp h
  obtain ⟨L, kept, rows⟩ := hf db' hdb
  exact I.withDb L kept fun w c hw => I.claimed_row free rows hw

/-- A pass moves on: what its new phase needs, and what the other passes keep. -/
lemma moved {ph} (moved : t.worker = Function.update s.worker w ph) (L : Ledger t.db t.log)
    (claim : ∀ c, ph = .claimed c → t.rowLock c.posting = some w ∧
      ∃ r ∈ t.db.outbox, r.posting = c.posting ∧ r.state = .queued)
    (claims : ∀ w' c, w' ≠ w → s.worker w' = .claimed c → t.rowLock c.posting = s.rowLock c.posting ∧
      ∃ r ∈ t.db.outbox, r.posting = c.posting ∧ r.state = .queued) (flight : ∀ c, ph.flight = some c → c.Live t.db ∧
      ∀ w' c', w' ≠ w → (s.worker w').flight = some c' → c'.posting = c.posting → c'.attemptNo ≠ c.attemptNo)
    (flights : ∀ w' c, w' ≠ w → (s.worker w').flight = some c → c.Live t.db)
    (unsent : ∀ c, ph.unsent = some c → (c.posting, c.attemptNo) ∉ t.wire)
    (others : ∀ w' c, w' ≠ w → (s.worker w').unsent = some c → (c.posting, c.attemptNo) ∉ t.wire)
    (wired : ∀ k ∈ t.wire, ∃ a ∈ t.db.attempts, a.posting = k.1 ∧ a.attemptNo = k.2 ∧ a.outcome ≠ .notSent)
    (once : t.wire.Nodup) : Inv t := by
  have self : t.worker w = ph := by rw [moved, Function.update_self]
  have other : ∀ {w'}, w' ≠ w → t.worker w' = s.worker w' := fun ne => by rw [moved, Function.update_of_ne ne]
  refine ⟨L, fun w' c h => ?_, fun w' c h => ?_, fun w₁ w₂ c₁ c₂ h₁ h₂ ep en => ?_, fun w' c h => ?_, wired, once⟩
  · rcases eq_or_ne w' w with rfl | ne
    · exact claim c (self ▸ h)
    · rw [other ne] at h
      exact ⟨(claims w' c ne h).1.trans (I.claims w' c h).1, (claims w' c ne h).2⟩
  · rcases eq_or_ne w' w with rfl | ne
    · exact (flight c (self ▸ h)).1
    · exact flights w' c ne (other ne ▸ h)
  · rcases eq_or_ne w₁ w with e₁ | ne₁ <;> rcases eq_or_ne w₂ w with e₂ | ne₂
    · exact e₁.trans e₂.symm
    · rw [e₁, self] at h₁
      exact absurd en.symm ((flight c₁ h₁).2 w₂ c₂ ne₂ (other ne₂ ▸ h₂) ep.symm)
    · rw [e₂, self] at h₂
      exact absurd en ((flight c₂ h₂).2 w₁ c₁ ne₁ (other ne₁ ▸ h₁) ep)
    · exact I.apart w₁ w₂ c₁ c₂ (other ne₁ ▸ h₁) (other ne₂ ▸ h₂) ep en
  · rcases eq_or_ne w' w with rfl | ne
    · exact unsent c (self ▸ h)
    · exact others w' c ne (other ne ▸ h)

lemma toIdle (w : Nat) {rowLock laneLock}
    (locks : ∀ w' c, w' ≠ w → s.worker w' = .claimed c → rowLock c.posting = s.rowLock c.posting) :
    Inv { s with worker := Function.update s.worker w .idle, rowLock := rowLock, laneLock := laneLock } :=
  I.moved rfl I.ledger nofun (fun w' c ne h => ⟨locks w' c ne h, (I.claims w' c h).2⟩) nofun
    (fun w' c _ => I.flights w' c) nofun (fun w' c _ => I.unsent w' c) I.wired I.once

lemma claims_apart {w' c'} (h : s.worker w = .claimed c) (h' : s.worker w' = .claimed c') (ne : w' ≠ w) : c'.posting ≠ c.posting := by
  intro e
  have l := (I.claims w c h).1
  have l' := (I.claims w' c' h').1
  rw [e, l] at l'
  exact ne (Option.some.inj l').symm

lemma release (h : s.worker w = .claimed c) : Inv (s.release w c .idle) :=
  I.toIdle w fun _ _ ne h' => Function.update_of_ne (I.claims_apart h h' ne) _ _

lemma claimNext {iface} (h : s.claimNext iface = some c) :
    Inv { s with
      worker := Function.update s.worker w (.claimed c)
      rowLock := Function.update s.rowLock c.posting (some w)
      laneLock := Function.update s.laneLock iface (some w) } := by
  obtain ⟨r, hr, er, st, free⟩ : ∃ r ∈ s.db.outbox, r.posting = c.posting ∧ r.state = .queued ∧
      s.rowLock c.posting = none := by
    unfold State.claimNext at h
    split at h
    · cases h
    next r hfind =>
      split at h
      · cases h
        have hp := List.find?_some hfind
        simp only [Bool.and_eq_true, beq_iff_eq, Option.isNone_iff_eq_none] at hp
        exact ⟨r, List.mem_of_find?_eq_some hfind, rfl, hp.1.2, hp.2⟩
      · cases h
  refine I.moved rfl I.ledger ?_ (fun w' c' _ h' => ?_) nofun (fun w' c _ => I.flights w' c) nofun
    (fun w' c _ => I.unsent w' c) I.wired I.once
  · rintro _ ⟨⟩
    exact ⟨Function.update_self _ _ _, r, hr, er, st⟩
  · obtain ⟨lock, row⟩ := I.claims w' c' h'
    refine ⟨Function.update_of_ne (fun ep => ?_) _ _, row⟩
    rw [ep, free] at lock
    cases lock

lemma attempted {pn} (h : s.worker w = .claimed c) (hdb : s.db.concludeClaim c .proceed = some db') :
    Inv { s.release w c (.attempted c pn) with db := db', log := s.log ++ [.attempt c.posting c.attemptNo] } := by
  obtain ⟨-, row⟩ := I.claims w c h
  have L := I.ledger.concludeClaim row hdb
  obtain ⟨gate, new, np, nn, sending, attempts⟩ := Db.concludeClaim_proceed hdb
  -- the number is new, so no flight and no byte on the wire carries it yet
  have fresh : ∀ a ∈ s.db.attempts, ¬(a.posting = c.posting ∧ a.attemptNo = c.attemptNo) := by
    rintro a ha ⟨ep, en⟩
    have := Db.lt_nextAttemptNo ha ep
    rw [← (I.ledger.accepted gate).1] at this
    omega
  have keep : ∀ {a}, a ∈ s.db.attempts → a ∈ db'.attempts := fun ha =>
    attempts ▸ List.mem_append_left _ ha
  refine I.moved rfl L nofun (fun w' c' ne h' => ?_) ?_ (fun w' c' _ h' => ?_) ?_ (fun w' c' _ => I.unsent w' c')
    (fun k hk => ?_) I.once
  · obtain ⟨-, r, hr, er, st⟩ := I.claims w' c' h'
    have ne := I.claims_apart h h' ne
    exact ⟨Function.update_of_ne ne _ _, r, Db.concludeClaim_rows hdb r hr (er ▸ ne), er, st⟩
  · rintro _ ⟨⟩
    refine ⟨⟨new, attempts ▸ List.mem_append_right _ (List.mem_singleton.mpr rfl), np, nn, .inl sending⟩,
      fun w' c' _ h' ep en => ?_⟩
    obtain ⟨a, ha, ap, an, -⟩ := I.flights w' c' h'
    exact fresh a ha ⟨ap.trans ep, an.trans en⟩
  · obtain ⟨a, ha, rest⟩ := I.flights w' c' h'
    exact ⟨a, keep ha, rest⟩
  · rintro _ ⟨⟩ hk
    obtain ⟨a, ha, ap, an, -⟩ := I.wired _ hk
    exact fresh a ha ⟨ap, an⟩
  · obtain ⟨a, ha, rest⟩ := I.wired k hk
    exact ⟨a, keep ha, rest⟩

lemma conclude (v : Verdict) (h : s.worker w = .claimed c) : Inv (s.conclude w c v) := by
  unfold State.conclude
  cases hdb : s.db.concludeClaim c v with
  | none => exact I.release h
  | some db' =>
    obtain ⟨-, row⟩ := I.claims w c h
    have L := I.ledger.concludeClaim row hdb
    have rows : ∀ w' c', (s.release w c .idle).worker w' = .claimed c' →
        ∃ r ∈ db'.outbox, r.posting = c'.posting ∧ r.state = .queued := by
      intro w' c' h'
      by_cases ew : w' = w
      · subst ew
        simp [State.release] at h'
      · simp only [State.release, Function.update_of_ne ew] at h'
        obtain ⟨-, r, hr, er, st⟩ := I.claims w' c' h'
        exact ⟨r, Db.concludeClaim_rows hdb r hr (er ▸ I.claims_apart h h' ew), er, st⟩
    cases v with
    | proceed => exact I.attempted h hdb
    | dark | decline _ | abortBeforeSend _ =>
      exact (I.release h).withDb L (.of_eq (Db.concludeClaim_attempts (by simp) hdb)) rows

lemma sendPS {pn : Nat} (res : SendResult) (h : s.worker w = .attempted c pn) : Inv (s.sendPS w c res) := by
  have mine : (s.worker w).flight = some c := by rw [h]; rfl
  have unsent : (c.posting, c.attemptNo) ∉ s.wire := I.unsent w c (by rw [h]; rfl)
  have wire : ∀ k, k ∈ (s.sendPS w c res).wire → k ∈ s.wire ∨
      (k = (c.posting, c.attemptNo) ∧ ∀ reason, res ≠ .notTransmitted reason) := by
    intro k hk
    cases res with
    | notTransmitted => exact .inl hk
    | answered | inconclusive =>
      rcases List.mem_append.mp hk with old | new
      · exact .inl old
      · exact .inr ⟨List.mem_singleton.mp new, by simp⟩
  refine I.moved rfl I.ledger nofun (fun w' c' _ h' => ⟨rfl, (I.claims w' c' h').2⟩) ?_ (fun w' c' _ => I.flights w' c')
    (fun c' h' hk => ?_) (fun w' c' ne h' hk => ?_) (fun k hk => ?_) ?_
  · rintro _ ⟨⟩
    exact ⟨I.flights w c mine, fun w' c' ne h' ep en => ne (I.apart w' w c' c h' mine ep en)⟩
  · -- only a send that proved nothing left is still unsent
    cases res with
    | notTransmitted =>
      cases h'
      exact unsent hk
    | answered | inconclusive => cases h'
  · rcases wire _ hk with old | ⟨e, -⟩
    · exact I.unsent w' c' h' old
    · obtain ⟨ep, en⟩ := Prod.mk.inj e
      exact ne (I.apart w' w c' c (Phase.flight_of_unsent h') mine ep en)
  · rcases wire k hk with old | ⟨rfl, -⟩
    · exact I.wired k old
    · obtain ⟨a, ha, ep, en, live⟩ := I.flights w c mine
      refine ⟨a, ha, ep, en, ?_⟩
      rcases live with l | l <;> simp [l]
  · cases res with
    | notTransmitted => exact I.once
    | answered | inconclusive =>
      refine List.nodup_append.mpr ⟨I.once, by simp, fun k hk k' hk' => ?_⟩
      rw [List.mem_singleton] at hk'
      exact fun e => unsent (hk' ▸ e ▸ hk)

/-- `settle` keeps the invariant: NOT_SENT is recorded only for an attempt no byte of which left. -/
lemma settle {res unproven s'} (h : s.worker w = .answered c res)
    (hs : (s.onRow c.posting fun db => db.settle c res unproven) = some s') :
    Inv { s' with worker := Function.update s.worker w .idle } := by
  unfold State.onRow at hs
  split at hs
  swap
  · cases hs
  rename_i free
  obtain ⟨db', hdb, rfl⟩ := Option.map_eq_some_iff.mp hs
  have mine : (s.worker w).flight = some c := by rw [h]; rfl
  obtain ⟨a, ha, ap, an, live⟩ := I.flights w c mine
  have L := I.ledger.settle ha ap an live hdb
  obtain ⟨o, as, mid, h1, h2⟩ := Db.settle_cases hdb
  have attempts : db'.attempts = mid.attempts := by
    rcases h2 with ⟨-, -, st, -, h2⟩ | ⟨-, reason, -, h2 | h2⟩ <;> exact Db.updateOutbox_attempts h2
  have rows : RowsOf c.posting s.db db' := by
    intro r hr ne
    rw [← Db.settleAttempt_outbox h1] at hr
    rcases h2 with ⟨-, -, st, -, h2⟩ | ⟨-, reason, -, h2 | h2⟩ <;> exact (Db.updateOutbox_keeps h2).2 r hr ne
  refine I.moved rfl L nofun (fun w' c' _ h' => ⟨rfl, I.claimed_row free rows h'⟩) nofun (fun w' c' ne h' => ?_) nofun
    (fun w' c' _ => I.unsent w' c') (fun k hk => ?_) I.once
  · obtain ⟨b, hb, bp, bn, blive⟩ := I.flights w' c' h'
    obtain ⟨b', hb', bp', bn', eo⟩ := Db.settleAttempt_mem h1 hb
    refine ⟨b', attempts ▸ hb', bp'.trans bp, bn'.trans bn, ?_⟩
    rcases eo with eo | ⟨e1, e2, -⟩
    · rw [eo]
      exact blive
    · exact absurd (I.apart w' w c' c h' mine (bp.symm.trans e1) (bn.symm.trans e2)) ne
  · obtain ⟨b, hb, bp, bn, sent⟩ := I.wired k hk
    obtain ⟨b', hb', bp', bn', eo⟩ := Db.settleAttempt_mem h1 hb
    refine ⟨b', attempts ▸ hb', bp'.trans bp, bn'.trans bn, ?_⟩
    rcases eo with eo | ⟨e1, e2, eo⟩
    · rw [eo]
      exact sent
    rcases h2 with ⟨sent', -⟩ | ⟨-, reason, rfl, -⟩
    · rw [eo]
      exact sent'
    -- the transport said it wrote nothing, so this attempt is not on the wire
    have unsent := I.unsent w c (by rw [h]; rfl)
    rw [← e1, ← e2, bp, bn] at unsent
    exact absurd hk unsent

end

end Inv

lemma Inv.step {s t act} (I : Inv s) (h : step s act = some t) : Inv t := by
  cases act with
  | insertPosting p iface =>
    obtain ⟨db', hdb, rfl⟩ := Option.map_eq_some_iff.mp h
    have e : db'.attempts = s.db.attempts ∧ ∀ r ∈ s.db.outbox, r ∈ db'.outbox := by
      unfold Db.insertPosting at hdb
      split at hdb
      · cases hdb
        exact ⟨rfl, fun r hr => List.mem_append_left _ hr⟩
      · cases hdb
    refine I.withDb (I.ledger.insertPosting hdb) (.of_eq e.1) fun w c hw => ?_
    obtain ⟨-, r, hr, rest⟩ := I.claims w c hw
    exact ⟨r, e.2 r hr, rest⟩
  | claimNext w iface =>
    simp only [Posting.step] at h
    split at h
    next hc =>
      cases h
      exact I.claimNext hc
    · cases h
  | conclude w v =>
    simp only [Posting.step] at h
    split at h
    next hw =>
      cases h
      exact I.conclude v hw
    · cases h
  | sendPS w res =>
    simp only [Posting.step] at h
    split at h
    next hw =>
      cases h
      exact I.sendPS res hw
    · cases h
  | settle w unproven =>
    simp only [Posting.step] at h
    split at h
    next hw =>
      obtain ⟨s', hs, rfl⟩ := Option.map_eq_some_iff.mp h
      exact I.settle hw hs
    · cases h
  | crash w =>
    simp only [Posting.step] at h
    split at h
    next hw =>
      cases h
      exact I.release hw
    · cases h
      exact I.toIdle w fun _ _ _ _ => rfl
  | recoverList k olderThan | recoverCrash k =>
    cases h
    exact ⟨I.ledger, I.claims, I.flights, I.apart, I.unsent, I.wired, I.once⟩
  | recoverOne k =>
    simp only [Posting.step] at h
    split at h
    · cases h
    obtain ⟨s', hs, rfl⟩ := Option.map_eq_some_iff.mp h
    have J : Inv s' := by
      refine I.onRow (fun db' hdb => ?_) hs
      obtain ⟨mid, h1, h2⟩ := Option.bind_eq_some_iff.mp hdb
      refine ⟨I.ledger.recoverOne hdb, fun a ha => ?_, fun r hr ne => ?_⟩
      · rw [Db.updateOutbox_attempts h2]
        obtain ⟨a', ha', ep, en, eo⟩ := Db.settleAttempt_mem h1 ha
        exact ⟨a', ha', ep, en, eo.imp_right fun e => e.2.2⟩
      · rw [← Db.settleAttempt_outbox h1] at hr
        exact (Db.updateOutbox_keeps h2).2 r hr ne
    exact ⟨J.ledger, J.claims, J.flights, J.apart, J.unsent, J.wired, J.once⟩
  | requeue p =>
    simp only [Posting.step] at h
    refine I.onRow (fun db' hdb => ?_) h
    exact ⟨I.ledger.releasing (by simp) hdb, Db.updateOutbox_keeps hdb⟩
  | reviewApply p =>
    simp only [Posting.step] at h
    refine I.onRow (fun db' hdb => ?_) h
    exact ⟨I.ledger.releasing (by simp_all) hdb, Db.updateOutbox_keeps hdb⟩
  | requeueParked p =>
    simp only [Posting.step] at h
    refine I.onRow (fun db' hdb => ?_) h
    have L := I.ledger.requeueParked hdb
    unfold Db.requeueParked at hdb
    split at hdb
    · exact ⟨L, Db.updateOutbox_keeps hdb⟩
    · cases hdb
  | recordReview p action v =>
    obtain ⟨db', hdb, rfl⟩ := Option.map_eq_some_iff.mp h
    obtain ⟨L, attempts, outbox⟩ := I.ledger.recordReview hdb
    exact I.withDb L (.of_eq attempts) fun w c hw => outbox ▸ (I.claims w c hw).2
  | holdRails =>
    simp only [Posting.step] at h
    split at h
    swap
    · cases h
    rename_i free
    cases h
    refine I.withDb I.ledger.holdRails (.of_eq rfl) fun w c hw => ?_
    -- an open claim would hold a row, and the hold waits for every row
    obtain ⟨lock, r, hr, er, -⟩ := I.claims w c hw
    have := List.all_eq_true.mp free r hr
    simp [er, lock] at this
  | reconcileDone p =>
    simp only [Posting.step] at h
    refine I.onRow (fun db' hdb => ?_) h
    exact ⟨I.ledger.updateOutbox hdb (fun _ => rfl) nofun, Db.updateOutbox_keeps hdb⟩
  | endRecovery | advance d =>
    cases h
    have L := I.ledger
    exact I.withDb ⟨L.recorded, L.posted, L.unique, L.settled, L.authorized, L.queued⟩ (.of_eq rfl)
      fun w c hw => (I.claims w c hw).2

lemma Inv.init (now : Nat) (park : Option Nat) : Inv (State.init now park) where
  ledger := by constructor <;> simp [State.init]
  claims := by simp [State.init]
  flights := by simp [State.init, Phase.flight]
  apart := by simp [State.init, Phase.flight]
  unsent := by simp [State.init]
  wired := by simp [State.init]
  once := List.nodup_nil

/-- An attempt without a conclusive answer, its audited release, and a second attempt. -/
def retriedRun : List Act :=
  [.insertPosting 1 7, .claimNext 0 7, .conclude 0 .proceed, .sendPS 0 .inconclusive, .settle 0 true,
    .recordReview 1 .confirmNotPostedRetry none, .requeue 1, .claimNext 0 7, .conclude 0 .proceed,
    .sendPS 0 (.answered "OK"), .settle 0 false]

/-- A SENDING attempt is the last of its posting, and no two passes have one attempt in hand. -/
def State.OneOpen (s : State) : Prop :=
  (∀ a ∈ s.db.attempts, ∀ b ∈ s.db.attempts, a.posting = b.posting → a.outcome = .sending → b.attemptNo ≤ a.attemptNo) ∧
  ∀ w w' c c', (s.worker w).flight = some c → (s.worker w').flight = some c' → c.posting = c'.posting → c.attemptNo = c'.attemptNo →
    w = w'

theorem one_open_attempt {now : Nat} {park : Option Nat} {acts : List Act} {s : State}
    (run : Run (ofOption Posting.step) (State.init now park) acts s) : s.OneOpen := by
  have I := run.invariant (fun st I => Inv.step I st) (Inv.init now park)
  refine ⟨fun a ha b hb same sending => not_lt.mp fun lt => ?_, I.apart⟩
  exact (I.ledger.settled a ha b hb same lt).1 sending

theorem one_open_attempt_retried : ∃ s, Run (ofOption Posting.step) (State.init 0 none) retriedRun s ∧ s.OneOpen := by
  obtain ⟨s, run, -⟩ := exists_run (f := Posting.step) (s := State.init 0 none) (l := retriedRun) (P := fun _ => true) (by decide)
  exact ⟨s, run, one_open_attempt run⟩

end StayConnect.Posting
