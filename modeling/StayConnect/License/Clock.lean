import StayConnect.License.Rollback

/-!
# The clock of the licence store

A call that succeeds leaves a high-water mark not below the clock it was made at, and only `ResetHighWater` lowers the mark. An
evaluation uses the mark when the clock is behind it by more than the tolerance.
-/

namespace StayConnect.License
open Transition Tx

/-- A store, with the readings of the calls that succeeded since the mark was last reset. -/
structure Watched where
  store : Store
  seen : List Int

def Watched.call (v : Verifier) (w : Watched) (c : Call) : Watched where
  store := w.store.step v ⟨c, none⟩
  seen := match c with
    | .resetHighWater .. => []
    | c => (c.reading v w.store.disk).toList ++ w.seen

/-- What `Validate` requires of the days of grace. -/
def Verifier.Validates (v : Verifier) : Prop :=
  ∀ payload doc, v.document payload = some doc → 0 ≤ doc.offlineGraceDays ∧ doc.offlineGraceDays ≤ 365 ∧ doc.gracePeriodDays ≤ 365

/-- The state file can be read, and its mark is not below a reading. -/
structure Kept (d : Disk) (seen : List Int) : Prop where
  intact : d.Intact
  seen : ∀ t ∈ seen, t ≤ d.marks.highWater

section
variable {v : Verifier} {d : Disk} {st : StoreState} {seen : List Int} {now : Int}

lemma le_advanceHighWater (st : StoreState) (now : Int) :
    st.highWater ≤ (st.advanceHighWater now).highWater ∧ now ≤ (st.advanceHighWater now).highWater := by
  unfold StoreState.advanceHighWater
  split
  next behind => exact ⟨Int.le_of_lt behind, Int.le_refl now⟩
  · exact ⟨Int.le_refl _, by omega⟩

lemma le_accept (st : StoreState) (doc : Document) (fingerprint : String) (now : Int) :
    st.highWater ≤ (st.accept doc fingerprint now).highWater ∧ now ≤ (st.accept doc fingerprint now).highWater := by
  unfold StoreState.accept
  dsimp only
  split <;> exact le_advanceHighWater _ now

lemma Kept.of_state (state : d.state.content = some (.value st)) (le : ∀ t ∈ seen, t ≤ st.highWater) : Kept d seen := by
  refine ⟨fun none => ?_, ?_⟩
  · rw [state] at none
    cases none
  · rwa [Disk.marks, state]

lemma Kept.later (h : Kept d seen) {c : Call} {later : List Int} (readings : ∀ t ∈ later, c.reading v d = some t ∨ t ∈ seen) {mark : Int}
    (le : d.marks.highWater ≤ mark ∧ now ≤ mark) (clock : ∀ t, c.reading v d = some t → now = t) : ∀ t ∈ later, t ≤ mark :=
  fun t mem => (readings t mem).elim (fun new => clock t new ▸ le.2) fun old => Int.le_trans (h.seen t old) le.1

lemma replaceAll_writeState (d : Disk) (st : StoreState) : (d.replaceAll (writeState d st)).state.content = some (.value st) := by
  unfold writeState Disk.replaceAll
  rw [List.foldl_append]
  rfl

lemma Kept.call {w : Watched} (h : Kept w.store.disk w.seen) (c : Call) : Kept (w.call v c).store.disk (w.call v c).seen := by
  have state : ∀ {st}, w.store.disk.readState = .ok st → st = w.store.disk.marks :=
    fun read => Except.ok.inj (read.symm.trans h.intact.readState)
  have seen : ∀ t ∈ (w.call v c).seen, c.reading v w.store.disk = some t ∨ t ∈ w.seen := by
    unfold Watched.call
    cases c <;> simp
  have writes := c.writes v w.store.disk
  change Kept (w.store.disk.replaceAll (c.run v w.store.disk).1) _
  generalize (c.run v w.store.disk).1 = rs at writes ⊢
  cases writes with
  | none refused => exact ⟨h.intact, fun t mem => h.seen t ((seen t mem).resolve_left (by simp [refused]))⟩
  | ahead read ahead =>
    cases state read
    exact ⟨h.intact, h.later seen ⟨Int.le_refl _, Int.not_lt.mp ahead⟩ (by simp +contextual [Call.reading])⟩
  | install read =>
    cases state read
    exact .of_state (replaceAll_install _ _).2 (h.later seen (le_accept _ _ _ _) (by simp +contextual [Call.reading]))
  | evaluate read | markCloudValidated read =>
    cases state read
    exact .of_state (replaceAll_writeState _ _) (h.later seen (le_advanceHighWater _ _) (by simp +contextual [Call.reading]))
  | resetHighWater read => exact .of_state (replaceAll_writeState _ _) fun _ mem => absurd mem List.not_mem_nil
  | addRevocation =>
    unfold writeRevoked
    cases w.store.disk.revoked.content.filter Text.jsonValid <;>
      exact ⟨h.intact, fun t mem => h.seen t ((seen t mem).resolve_left (by simp [Call.reading]))⟩

lemma Kept.calls {w : Watched} (h : Kept w.store.disk w.seen) (calls : List Call) :
    Kept (calls.foldl (Watched.call v) w).store.disk (calls.foldl (Watched.call v) w).seen := by
  induction calls generalizing w with
  | nil => exact h
  | cons c rest ih => exact ih (h.call c)

lemma File.readOrPrev_ok {α β : Type} {f : File α} {parse : α → Option β} {x : β} (ok : f.readOrPrev parse = .ok x) :
    ∃ a, parse a = some x := by
  unfold File.readOrPrev at ok
  repeat' split at ok
  all_goals cases ok
  all_goals
    rename_i found
    obtain ⟨a, -, read⟩ := Option.bind_eq_some_iff.mp found
    exact ⟨a, read⟩

lemma load_document {doc : Document} (loaded : load v d = .ok doc) : ∃ payload, v.document payload = some doc := by
  unfold load at loaded
  split at loaded
  · cases loaded
  simp only [ok_bind_iff] at loaded
  obtain ⟨doc, found, _, -, _, -, ⟨⟩⟩ := loaded
  obtain ⟨raw, read⟩ := File.readOrPrev_ok found
  obtain ⟨env, -, verified⟩ := Option.bind_eq_some_iff.mp read
  unfold Verifier.verify at verified
  split at verified
  · exact ⟨_, verified⟩
  · cases verified

/-- An evaluation is of a verified document, at a time that is behind the mark by the tolerance at most. -/
lemma Disk.Intact.evaluate (h : d.Intact) {r} (ok : License.evaluate v now d = .ok r) :
    ∃ doc payload effective validated revoked, v.document payload = some doc ∧
      r.1 = { doc.evaluate effective validated revoked with clockRollback := r.1.clockRollback } ∧
      d.marks.highWater - clockRollbackTolerance ≤ effective := by
  simp only [License.evaluate, ok_bind_iff, h.readState] at ok
  obtain ⟨doc, loaded, st, ⟨⟩, revoked, -, ⟨⟩⟩ := ok
  obtain ⟨payload, document⟩ := load_document loaded
  refine ⟨doc, payload, _, _, _, document, rfl, ?_⟩
  unfold clockRollbackTolerance day
  split
  · omega
  next near =>
    rw [decide_eq_true_eq] at near
    omega

/-- A document is over once its restricted window has passed. -/
lemma Document.evaluate_over {doc : Document} (grace : 0 ≤ doc.offlineGraceDays) (validated : Int) {revoked : Bool}
    (past : (doc.evaluate now validated revoked).restrictedUntil < now) :
    (doc.evaluate now validated revoked).state ∈ [.expired, .suspended, .revoked] := by
  have days : 0 ≤ doc.effectiveGraceDays := by
    unfold Document.effectiveGraceDays
    repeat' split
    all_goals omega
  unfold Document.evaluate day at *
  dsimp only at *
  split_ifs at * <;> first | omega | simp

end

/-- In every sequence of calls, the time a licence is evaluated at is at most 48 hours before any clock reading of a call that
succeeded since the mark was last reset, so a licence that was over by 48 hours at such a reading stays over. -/
theorem time_not_turned_back (v : Verifier) (calls : List Call) (now : Int) :
    let w := calls.foldl (Watched.call v) ⟨.new, []⟩
    (∀ t ∈ w.seen, t ≤ w.store.disk.marks.highWater) ∧
    ∀ ev rs, evaluate v now w.store.disk = .ok (ev, rs) → ∃ effective validated revoked,
      ev = { ev.doc.evaluate effective validated revoked with clockRollback := ev.clockRollback } ∧
      ∀ t ∈ w.seen, t - clockRollbackTolerance ≤ effective ∧
        (v.Validates → ev.restrictedUntil + clockRollbackTolerance < t → ev.state ∈ [.expired, .suspended, .revoked]) := by
  have kept : Kept Store.new.disk [] := ⟨fun _ => ⟨rfl, rfl⟩, nofun⟩
  have kept := Kept.calls (v := v) (w := ⟨.new, []⟩) kept calls
  refine ⟨kept.seen, fun ev rs ok => ?_⟩
  obtain ⟨doc, payload, effective, validated, revoked, document, eq, le⟩ := kept.intact.evaluate ok
  dsimp only at eq
  rw [eq]
  refine ⟨effective, validated, revoked, rfl, fun t mem => ?_⟩
  have mark := kept.seen t mem
  refine ⟨by omega, fun validates past => Document.evaluate_over (validates payload doc document).1 validated ?_⟩
  change (doc.evaluate effective validated revoked).restrictedUntil + clockRollbackTolerance < t at past
  omega

/-- An evaluation that finds no licence leaves no mark: the licence is active again at an earlier time. -/
theorem reading_of_failed_call_forgotten :
    (evaluate twoVersions 50 (([.evaluate (5 * day), .install "first" 11] : List Call).foldl (Watched.call twoVersions)
      ⟨.new, []⟩).store.disk).toOption.any fun r =>
        r.1.state = .active ∧ r.1.restrictedUntil + clockRollbackTolerance < 5 * day := by
  decide +kernel

end StayConnect.License
