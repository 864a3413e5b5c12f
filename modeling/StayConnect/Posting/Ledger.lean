import Mathlib.Order.Nat
import StayConnect.Posting.Engine

/-!
# The ledger invariant

`Ledger db log` ties the committed tables to the history of attempts and decisions. Its two load-bearing
parts: of two attempts of a posting the earlier one is NOT_SENT or a CONFIRM_NOT_POSTED_RETRY decision lies
between them (`settled`), and a QUEUED row has only attempts that are NOT_SENT or followed by such a
decision (`queued`). Each transaction of the engine keeps it; the triggers of the attempts table are what
carries `Ledger.insertAttempt`.
-/

namespace StayConnect.Posting

/-- A CONFIRM_NOT_POSTED_RETRY decision was recorded after attempt `n` of `p`. -/
def RetryAfter (log : List Event) (p n : Nat) : Prop :=
  [.attempt p n, .decision p .confirmNotPostedRetry].Sublist log

/-- A CONFIRM_NOT_POSTED_RETRY decision was recorded between attempts `m` and `n` of `p`. -/
def RetryBetween (log : List Event) (p m n : Nat) : Prop :=
  [.attempt p m, .decision p .confirmNotPostedRetry, .attempt p n].Sublist log

variable {log : List Event} {p n m : Nat}

lemma RetryAfter.append (h : RetryAfter log p n) (es : List Event) : RetryAfter (log ++ es) p n :=
  h.trans (List.sublist_append_left log es)

lemma RetryBetween.append (h : RetryBetween log p m n) (es : List Event) : RetryBetween (log ++ es) p m n :=
  h.trans (List.sublist_append_left log es)

lemma RetryBetween.after (h : RetryBetween log p m n) : RetryAfter log p m :=
  (List.sublist_append_left [Event.attempt p m, .decision p .confirmNotPostedRetry]
    [.attempt p n]).trans h

lemma RetryAfter.between (h : RetryAfter log p m) (n : Nat) : RetryBetween (log ++ [.attempt p n]) p m n :=
  List.Sublist.append h (List.Sublist.refl [Event.attempt p n])

/-- Every attempt of `p` is NOT_SENT or was followed by a retry decision. -/
def Released (db : Db) (log : List Event) (p : Nat) : Prop :=
  ∀ a ∈ db.attempts, a.posting = p → a.outcome = .notSent ∨ RetryAfter log p a.attemptNo

/-- The tables agree with the history of attempts and decisions. -/
structure Ledger (db : Db) (log : List Event) : Prop where
  recorded : ∀ a ∈ db.attempts, Event.attempt a.posting a.attemptNo ∈ log
  posted : ∀ a ∈ db.attempts, ∃ r ∈ db.outbox, r.posting = a.posting
  unique : ∀ a ∈ db.attempts, ∀ b ∈ db.attempts,
    a.posting = b.posting → a.attemptNo = b.attemptNo → a = b
  settled : ∀ a ∈ db.attempts, ∀ b ∈ db.attempts, a.posting = b.posting → a.attemptNo < b.attemptNo →
    a.outcome ≠ .sending ∧
      (a.outcome = .notSent ∨ RetryBetween log a.posting a.attemptNo b.attemptNo)
  authorized : ∀ p rs m, db.review p = some rs → rs.retryAuthorizedAttemptNo = some m →
    rs.terminalAction = some .confirmNotPostedRetry ∧ m = db.nextAttemptNo p ∧
      ∀ a ∈ db.attempts, a.posting = p → RetryAfter log p a.attemptNo
  queued : ∀ r ∈ db.outbox, r.state = .queued → Released db log r.posting

namespace Db

variable {db db' : Db} {p n : Nat}

lemma mem_attemptsOf {a} : a ∈ db.attemptsOf p ↔ a ∈ db.attempts ∧ a.posting = p := by
  simp [attemptsOf]

lemma lastAttempt_eq_none (h : db.lastAttempt p = none) : ∀ a ∈ db.attempts, a.posting ≠ p := by
  intro a ha e
  have hnil : db.attemptsOf p = [] := List.argmax_eq_none.mp h
  have : a ∈ db.attemptsOf p := mem_attemptsOf.mpr ⟨ha, e⟩
  simp [hnil] at this

lemma lastAttempt_eq_some {l} (h : db.lastAttempt p = some l) :
    l ∈ db.attempts ∧ l.posting = p ∧ ∀ a ∈ db.attempts, a.posting = p → a.attemptNo ≤ l.attemptNo := by
  have hl := mem_attemptsOf.mp (List.argmax_mem h)
  refine ⟨hl.1, hl.2, fun a ha e => ?_⟩
  exact List.le_of_mem_argmax (mem_attemptsOf.mpr ⟨ha, e⟩) h

lemma nextAttemptNo_eq : db.nextAttemptNo p = ((db.attemptsOf p).map Attempt.attemptNo).foldr max ⊥ + 1 := by
  unfold nextAttemptNo
  cases h : db.lastAttempt p with
  | none => rw [List.argmax_eq_none.mp h]; rfl
  | some l =>
    have max : ∀ n ∈ (db.attemptsOf p).map Attempt.attemptNo, n ≤ l.attemptNo := by
      intro n hn
      obtain ⟨a, ha, rfl⟩ := List.mem_map.mp hn
      exact List.le_of_mem_argmax ha h
    have mem : l.attemptNo ∈ (db.attemptsOf p).map Attempt.attemptNo := List.mem_map_of_mem (List.argmax_mem h)
    exact congrArg (· + 1) (Nat.le_antisymm (List.le_max_of_le mem le_rfl) (List.max_le_of_forall_le _ _ max))

lemma lt_nextAttemptNo {a} (ha : a ∈ db.attempts) (e : a.posting = p) : a.attemptNo < db.nextAttemptNo p := by
  rw [nextAttemptNo_eq]
  exact Nat.lt_succ_of_le (List.le_max_of_le (List.mem_map_of_mem (mem_attemptsOf.mpr ⟨ha, e⟩)) le_rfl)

lemma nextAttemptNo_congr (h : (db'.attemptsOf p).map Attempt.attemptNo = (db.attemptsOf p).map Attempt.attemptNo) :
    db'.nextAttemptNo p = db.nextAttemptNo p := by
  rw [nextAttemptNo_eq, nextAttemptNo_eq, h]

lemma updateOutbox_eq {reconciling cond f} (h : db.updateOutbox reconciling p cond f = some db') :
    db' = { db with outbox := db.outbox.map fun r => if r.posting == p && cond r then f r else r } := by
  unfold updateOutbox at h
  split at h
  · exact (Option.some.inj h).symm
  · cases h

lemma settleAttempt_eq {o as} (h : db.settleAttempt p n o as = some db') :
    (∀ a ∈ db.attempts, a.posting = p → a.attemptNo = n → a.outcome = .sending ∨ o = a.outcome) ∧
    db' = { db with
      attempts := db.attempts.map fun a =>
        if a.posting == p && a.attemptNo == n then { a with outcome := o, paAsStatus := as } else a } := by
  unfold settleAttempt at h
  split at h
  next all =>
    refine ⟨fun a ha ep en => ?_, (Option.some.inj h).symm⟩
    have := List.all_eq_true.mp all a ha
    simpa [ep, en, attemptOneway] using this
  · cases h

/-- The review state after an insertion: unchanged, or a consumed authorization. -/
lemma consumeRetryAuthorization_eq (db : Db) (p n : Nat) :
    ∃ review, db.consumeRetryAuthorization p n = { db with review := review } ∧
      ∀ q rs m, review q = some rs → rs.retryAuthorizedAttemptNo = some m →
        db.review q = some rs ∧ (q = p → rs.terminalAction = some .confirmNotPostedRetry → m ≠ n) := by
  unfold consumeRetryAuthorization
  cases hp : db.review p with
  | none =>
    refine ⟨db.review, rfl, fun q rs m hq hm => ⟨hq, ?_⟩⟩
    rintro rfl
    rw [hp] at hq
    cases hq
  | some rs0 =>
    simp only
    split
    · refine ⟨_, rfl, fun q rs m hq hm => ?_⟩
      by_cases e : q = p
      · subst e
        rw [Function.update_self] at hq
        cases hq
        cases hm
      · rw [Function.update_of_ne e] at hq
        exact ⟨hq, fun e' => absurd e' e⟩
    next kept =>
      refine ⟨db.review, rfl, fun q rs m hq hm => ⟨hq, ?_⟩⟩
      rintro rfl term rfl
      rw [hp] at hq
      cases hq
      exact kept (by simp [term, hm])

lemma insertAttempt_eq {iface pn} (h : db.insertAttempt p iface n pn = some db') :
    db.attemptRetryGate p n = true ∧ ∃ review, db' = { db.addAttempt p iface n pn with review := review } ∧
      ∀ q rs m, review q = some rs → rs.retryAuthorizedAttemptNo = some m →
        db.review q = some rs ∧ (q = p → rs.terminalAction = some .confirmNotPostedRetry → m ≠ n) := by
  unfold insertAttempt at h
  split at h
  swap
  · cases h
  rename_i ok
  obtain ⟨review, e, kept⟩ := consumeRetryAuthorization_eq (db.addAttempt p iface n pn) p n
  exact ⟨(Bool.and_eq_true_iff.mp ok).1, review, (e.symm.trans (Option.some.inj h)).symm, kept⟩

end Db

namespace Ledger

variable {db db' : Db} {log : List Event}

section
variable (L : Ledger db log)
include L

lemma mapRows {g} (hp : ∀ r, (g r).posting = r.posting)
    (hq : ∀ r ∈ db.outbox, (g r).state = .queued → r.state = .queued ∨ Released db log r.posting) :
    Ledger { db with outbox := db.outbox.map g } log where
  recorded := L.recorded
  posted a ha := by
    obtain ⟨r, hr, e⟩ := L.posted a ha
    exact ⟨g r, List.mem_map_of_mem hr, (hp r).trans e⟩
  unique := L.unique
  settled := L.settled
  authorized := L.authorized
  queued r' hr' st := by
    obtain ⟨r, hr, rfl⟩ := List.mem_map.mp hr'
    rw [hp r]
    rcases hq r hr st with st' | rel
    · exact L.queued r hr st'
    · exact rel

variable {p n : Nat}

lemma updateOutbox {reconciling cond f} (h : db.updateOutbox reconciling p cond f = some db') (hf : ∀ r, (f r).posting = r.posting)
    (hq : ∀ r ∈ db.outbox, r.posting = p → cond r = true → (f r).state = .queued → Released db log p) : Ledger db' log := by
  rw [Db.updateOutbox_eq h]
  refine L.mapRows (fun r => ?_) (fun r hr st => ?_)
  · split
    · exact hf r
    · rfl
  · split at st
    next hit =>
      obtain ⟨e, hc⟩ : r.posting = p ∧ cond r = true := by simpa using hit
      exact .inr (e ▸ hq r hr e hc st)
    · exact .inl st

lemma setState {st} (hq : st = .queued → Released db log p) (h : db.setState p st = some db') : Ledger db' log :=
  L.updateOutbox h (fun _ => rfl) (fun _ _ _ _ e => hq e)

lemma defer {kind reason} (rel : Released db log p) (h : db.defer p kind reason = some db') : Ledger db' log := by
  refine L.updateOutbox h (fun r => ?_) (fun _ _ _ _ _ => rel)
  unfold Db.deferRow
  cases kind with
  | notSent => rfl
  | declined => simp only; split <;> rfl

lemma settleAttempt {o as} (h : db.settleAttempt p n o as = some db') : Ledger db' log := by
  obtain ⟨oneway, rfl⟩ := Db.settleAttempt_eq h
  set g : Attempt → Attempt := fun a =>
    if a.posting == p && a.attemptNo == n then { a with outcome := o, paAsStatus := as } else a with hg
  have gp : ∀ a, (g a).posting = a.posting := fun a => by simp only [hg]; split <;> rfl
  have gn : ∀ a, (g a).attemptNo = a.attemptNo := fun a => by simp only [hg]; split <;> rfl
  have gkeep : ∀ a ∈ db.attempts, a.outcome ≠ .sending → (g a).outcome = a.outcome := by
    intro a ha ns
    simp only [hg]
    split
    next hit =>
      obtain ⟨e, e'⟩ : a.posting = p ∧ a.attemptNo = n := by simpa using hit
      rcases oneway a ha e e' with s | s
      · exact absurd s ns
      · exact s
    · rfl
  have next : ∀ q, { db with attempts := db.attempts.map g }.nextAttemptNo q = db.nextAttemptNo q := by
    intro q
    refine Db.nextAttemptNo_congr ?_
    have : ({ db with attempts := db.attempts.map g } : Db).attemptsOf q =
        (db.attemptsOf q).map g := by
      simp only [Db.attemptsOf, List.filter_map]
      congr 1
      exact List.filter_congr fun a _ => by simp [gp]
    rw [this, List.map_map]
    exact List.map_congr_left fun a _ => gn a
  refine ⟨?_, ?_, ?_, ?_, ?_, ?_⟩
  · intro a' ha'
    obtain ⟨a, ha, rfl⟩ := List.mem_map.mp ha'
    rw [gp, gn]
    exact L.recorded a ha
  · intro a' ha'
    obtain ⟨a, ha, rfl⟩ := List.mem_map.mp ha'
    rw [gp]
    exact L.posted a ha
  · intro a' ha' b' hb' ep en
    obtain ⟨a, ha, rfl⟩ := List.mem_map.mp ha'
    obtain ⟨b, hb, rfl⟩ := List.mem_map.mp hb'
    rw [gp, gp] at ep
    rw [gn, gn] at en
    rw [L.unique a ha b hb ep en]
  · intro a' ha' b' hb' ep lt
    obtain ⟨a, ha, rfl⟩ := List.mem_map.mp ha'
    obtain ⟨b, hb, rfl⟩ := List.mem_map.mp hb'
    rw [gp, gp] at ep
    rw [gn, gn] at lt
    obtain ⟨ns, done⟩ := L.settled a ha b hb ep lt
    rw [gkeep a ha ns, gp, gn, gn]
    exact ⟨ns, done⟩
  · intro q rs m hq hm
    obtain ⟨term, e, after⟩ := L.authorized q rs m hq hm
    refine ⟨term, e.trans (next q).symm, fun a' ha' ep => ?_⟩
    obtain ⟨a, ha, rfl⟩ := List.mem_map.mp ha'
    rw [gp] at ep
    rw [gn]
    exact after a ha ep
  · intro r hr st a' ha' ep
    obtain ⟨a, ha, rfl⟩ := List.mem_map.mp ha'
    rw [gp] at ep
    rw [gn]
    rcases L.queued r hr st a ha ep with ns | after
    · exact .inl ((gkeep a ha (by simp [ns])).trans ns)
    · exact .inr after

/-- An accepted insertion: the number is the next one, and every earlier attempt is NOT_SENT or already
followed by a retry decision. -/
lemma accepted (h : db.attemptRetryGate p n = true) :
    n = db.nextAttemptNo p ∧ ∀ a ∈ db.attempts, a.posting = p →
      a.outcome ≠ .sending ∧ (a.outcome = .notSent ∨ RetryAfter log p a.attemptNo) := by
  unfold Db.attemptRetryGate at h
  unfold Db.nextAttemptNo
  cases hl : db.lastAttempt p with
  | none =>
    rw [hl] at h
    exact ⟨by simpa using h, fun a ha e => absurd e (Db.lastAttempt_eq_none hl a ha)⟩
  | some l =>
    rw [hl] at h
    obtain ⟨hn, gate⟩ : n = l.attemptNo + 1 ∧ _ := by simpa using h
    obtain ⟨lmem, lp, max⟩ := Db.lastAttempt_eq_some hl
    refine ⟨hn, fun a ha e => ?_⟩
    rcases Nat.lt_or_eq_of_le (max a ha e) with lt | eq
    · -- an attempt before the last one was settled when the next one came
      obtain ⟨ns, done⟩ := L.settled a ha l lmem (e.trans lp.symm) lt
      rw [e] at done
      exact ⟨ns, done.imp_right RetryBetween.after⟩
    obtain rfl := L.unique a ha l lmem (e.trans lp.symm) eq
    -- the last attempt is what the gate looks at
    cases ho : a.outcome with
    | sending => simp [ho] at gate
    | notSent => exact ⟨by simp, .inl rfl⟩
    | unknown | acked =>
      rw [ho] at gate
      refine ⟨by simp, .inr ?_⟩
      cases hr : db.review p with
      | none => simp [hr] at gate
      | some rs =>
        rw [hr] at gate
        obtain ⟨-, auth⟩ : rs.terminalAction = some .confirmNotPostedRetry ∧
            rs.retryAuthorizedAttemptNo = some n := by simpa using gate
        exact (L.authorized p rs n hr auth).2.2 a ha e

lemma insertAttempt {iface pn} (row : ∃ r ∈ db.outbox, r.posting = p) (claimed : ∀ r ∈ db.outbox, r.posting = p → r.state ≠ .queued)
    (h : db.insertAttempt p iface n pn = some db') : Ledger db' (log ++ [.attempt p n]) := by
  obtain ⟨gate, review, rfl, kept⟩ := Db.insertAttempt_eq h
  obtain ⟨hn, earlier⟩ := L.accepted gate
  have below : ∀ a ∈ db.attempts, a.posting = p → a.attemptNo < n := by
    intro a ha e
    rw [hn]
    exact Db.lt_nextAttemptNo ha e
  have split : ∀ a, a ∈ (db.addAttempt p iface n pn).attempts →
      a ∈ db.attempts ∨ (a.posting = p ∧ a.attemptNo = n) := by
    intro a ha
    rcases List.mem_append.mp ha with old | new
    · exact .inl old
    · rw [List.mem_singleton] at new
      subst new
      exact .inr ⟨rfl, rfl⟩
  refine ⟨?_, ?_, ?_, ?_, ?_, ?_⟩
  · intro a ha
    rcases split a ha with old | ⟨ep, en⟩
    · exact List.mem_append_left _ (L.recorded a old)
    · rw [ep, en]
      exact List.mem_append_right _ (List.mem_singleton.mpr rfl)
  · intro a ha
    rcases split a ha with old | ⟨ep, -⟩
    · exact L.posted a old
    · rw [ep]
      exact row
  · intro a ha b hb ep en
    rcases List.mem_append.mp ha with olda | newa <;> rcases List.mem_append.mp hb with oldb | newb
    · exact L.unique a olda b oldb ep en
    · rw [List.mem_singleton] at newb
      subst newb
      exact absurd en (Nat.ne_of_lt (below a olda ep))
    · rw [List.mem_singleton] at newa
      subst newa
      exact absurd en.symm (Nat.ne_of_lt (below b oldb ep.symm))
    · rw [List.mem_singleton] at newa newb
      rw [newa, newb]
  · intro a ha b hb ep lt
    rcases split b hb with oldb | ⟨bp, bn⟩
    · have olda : a ∈ db.attempts := by
        rcases split a ha with old | ⟨ap, an⟩
        · exact old
        · have := below b oldb (ep.symm.trans ap)
          omega
      obtain ⟨ns, done⟩ := L.settled a olda b oldb ep lt
      exact ⟨ns, done.imp_right fun bt => bt.append _⟩
    · have ap := ep.trans bp
      have olda : a ∈ db.attempts := by
        rcases split a ha with old | ⟨-, an⟩
        · exact old
        · omega
      obtain ⟨ns, done⟩ := earlier a olda ap
      rw [ap, bn]
      exact ⟨ns, done.imp_right fun af => af.between n⟩
  · intro q rs m hq hm
    obtain ⟨hq', fresh⟩ := kept q rs m hq hm
    obtain ⟨term, em, after⟩ := L.authorized q rs m hq' hm
    have ne : q ≠ p := fun e => fresh e term (by rw [em, e, hn])
    refine ⟨term, em.trans (Db.nextAttemptNo_congr ?_).symm, fun a ha ep => ?_⟩
    · simp [Db.attemptsOf, Db.addAttempt, Ne.symm ne]
    · rcases split a ha with old | ⟨ap, -⟩
      · exact (after a old ep).append _
      · exact absurd (ep.symm.trans ap) ne
  · intro r hr st a ha ep
    have ne : r.posting ≠ p := fun e => claimed r hr e st
    rcases split a ha with old | ⟨ap, -⟩
    · exact (L.queued r hr st a old ep).imp_right fun af => af.append _
    · exact absurd (ep.symm.trans ap) ne

/-- `record_posting_review_action` keeps the ledger: a retry decision authorizes the next attempt. -/
lemma recordReview {action v} (h : db.recordReview p action v = some db') :
    Ledger db' (log ++ [.decision p action]) ∧ db'.attempts = db.attempts ∧ db'.outbox = db.outbox := by
  -- only the review row of `p` changes; its new authorization, if any, is for the next attempt
  obtain ⟨rs, e, auth⟩ : ∃ rs, db' = { db with review := Function.update db.review p (some rs) } ∧
      ∀ m, rs.retryAuthorizedAttemptNo = some m →
        rs.terminalAction = some .confirmNotPostedRetry ∧ m = db.nextAttemptNo p ∧
        (action = .confirmNotPostedRetry ∨
          ∃ rs0, db.review p = some rs0 ∧ rs0.retryAuthorizedAttemptNo = some m) := by
    unfold Db.recordReview at h
    simp only at h
    split at h
    swap
    · cases h
    split at h
    · cases h
      refine ⟨_, rfl, fun m hm => ?_⟩
      cases hp : db.review p with
      | none => simp [hp] at hm
      | some rs0 =>
        simp only [hp, Option.getD_some] at hm ⊢
        obtain ⟨term, em, -⟩ := L.authorized p rs0 m hp hm
        exact ⟨term, em, .inr ⟨rs0, rfl, hm⟩⟩
    · split at h
      swap
      · cases h
      cases h
      refine ⟨_, rfl, fun m hm => ?_⟩
      simp only at hm ⊢
      split at hm
      next hact =>
        cases hm
        exact ⟨by rw [hact], rfl, .inl hact⟩
      · cases hm
  subst e
  refine ⟨⟨?_, L.posted, L.unique, ?_, ?_, ?_⟩, rfl, rfl⟩
  · exact fun a ha => List.mem_append_left _ (L.recorded a ha)
  · intro a ha b hb ep lt
    obtain ⟨ns, done⟩ := L.settled a ha b hb ep lt
    exact ⟨ns, done.imp_right fun bt => bt.append _⟩
  · intro q rs' m hq hm
    simp only at hq
    by_cases eq : q = p
    · subst eq
      rw [Function.update_self] at hq
      cases hq
      obtain ⟨term, em, how⟩ := auth m hm
      refine ⟨term, em, fun a ha ep => ?_⟩
      rcases how with rfl | ⟨rs0, hp, hm0⟩
      · exact List.Sublist.append (List.singleton_sublist.mpr (ep ▸ L.recorded a ha)) (.refl _)
      · exact ((L.authorized q rs0 m hp hm0).2.2 a ha ep).append _
    · rw [Function.update_of_ne eq] at hq
      obtain ⟨term, em, after⟩ := L.authorized q rs' m hq hm
      exact ⟨term, em, fun a ha ep => (after a ha ep).append _⟩
  · intro r hr st a ha ep
    exact (L.queued r hr st a ha ep).imp_right fun af => af.append _

lemma insertPosting {iface} (h : db.insertPosting p iface = some db') : Ledger db' log := by
  unfold Db.insertPosting at h
  split at h
  swap
  · cases h
  rename_i ok
  obtain ⟨-, new⟩ := Bool.and_eq_true_iff.mp ok
  have fresh : ∀ a ∈ db.attempts, a.posting ≠ p := by
    intro a ha e
    obtain ⟨r, hr, er⟩ := L.posted a ha
    have := List.all_eq_true.mp new r hr
    simp [er, e] at this
  cases h
  refine ⟨L.recorded, ?_, L.unique, L.settled, L.authorized, ?_⟩
  · intro a ha
    obtain ⟨r, hr, e⟩ := L.posted a ha
    exact ⟨r, List.mem_append_left _ hr, e⟩
  · intro r hr st
    rcases List.mem_append.mp hr with old | new
    · exact L.queued r old st
    · rw [List.mem_singleton] at new
      subst new
      exact fun a ha e => absurd e (fresh a ha)

lemma holdRails : Ledger db.holdRails log := by
  have H := L.mapRows (g := fun r => if r.state == .queued || r.state == .inFlight then
    { r with state := .heldRecovery } else r) (fun r => by split <;> rfl) (fun r _ st => by
      split at st
      · cases st
      · exact .inl st)
  exact ⟨H.recorded, H.posted, H.unique, H.settled, H.authorized, H.queued⟩

lemma claimRow (p : Nat) : Ledger (db.claimRow p) log := by
  refine L.mapRows (fun r => by split <;> rfl) (fun r _ st => ?_)
  split at st
  · cases st
  · exact .inl st

/-- A row is queued again for an authorized retry. -/
lemma releasing {authorized : ReviewState → Bool}
    (some_retry : ∀ rs, authorized rs = true → rs.retryAuthorizedAttemptNo.isSome = true)
    (h : db.updateOutbox false p (fun r => r.state == .heldRecovery && match db.review p with
      | some rs => authorized rs
      | none => false) (fun r => { r with state := .queued }) = some db') : Ledger db' log := by
  refine L.updateOutbox h (fun _ => rfl) (fun r _ _ hc _ a ha e => ?_)
  cases hr : db.review p with
  | none => simp [hr] at hc
  | some rs =>
    rw [hr] at hc
    obtain ⟨m, hm⟩ := Option.isSome_iff_exists.mp (some_retry rs (Bool.and_eq_true_iff.mp hc).2)
    exact .inr ((L.authorized p rs m hr hm).2.2 a ha e)

lemma requeueParked (h : db.requeueParked p = some db') : Ledger db' log := by
  unfold Db.requeueParked at h
  split at h
  swap
  · cases h
  rename_i ok
  obtain ⟨-, unsent⟩ := Bool.and_eq_true_iff.mp ok
  refine L.updateOutbox h (fun _ => rfl) (fun _ _ _ _ _ a ha e => ?_)
  have := (Bool.not_eq_true' _).mp unsent
  rw [Db.mayHaveSent, List.any_eq_false] at this
  simpa using Or.inl (this a (Db.mem_attemptsOf.mpr ⟨ha, e⟩))

lemma recoverOne (h : db.recoverOne p n = some db') : Ledger db' log := by
  obtain ⟨mid, h1, h2⟩ := Option.bind_eq_some_iff.mp h
  exact (L.settleAttempt h1).setState (by simp) h2

end

end Ledger

end StayConnect.Posting
