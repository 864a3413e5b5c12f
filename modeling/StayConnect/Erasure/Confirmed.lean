import StayConnect.Erasure.Query

/-!
# Confirmed erasures stay in the copies

Both copies hold what the database holds (`InStep`), and entries still to be taken back beside it. Committing adds to both copies,
aborting removes from both, reconciling changes nothing. A commit of the database that failed and was made all the same is the one
place where aborting takes back what is confirmed.
-/

namespace StayConnect.Erasure
open Framing (Bytes)
open Transition

variable {cfg : Config} {c : Codec} {now : Int} {es a b : List Entry} {s : Copies} {db : Database} {readSeal : String → Option (Int × String)}

/-- Both copies hold the entries, the secondary one as it was pushed. -/
structure InStep (cfg : Config) (c : Codec) (s : Copies) (es : List Entry) : Prop where
  chain : Chain c es
  nonempty : es ≠ []
  authentic : ∀ k ∈ cfg.key, ∀ e ∈ es, e.mac ≠ "" → k.entryOK e = true
  file : s.file = some (encode c es)
  stored : ∃ t, s.storage.note = some (.note (outgoing cfg c t (encode c es) es).info) ∧
    s.storage.get (outgoing cfg c t (encode c es) es).name = some (outgoing cfg c t (encode c es) es).object

lemma encode_append (xs ys : List Entry) : encode c (xs ++ ys) = encode c xs ++ encode c ys := List.flatMap_append

lemma readExternalHead_outgoing {st t plain} (note : st.note = some (.note (outgoing cfg c t plain es).info)) :
    readExternalHead cfg .none st = .ok (some (outgoing cfg c t plain es).info) := by
  have authentic : (cfg.key.any (·.rejects (outgoing cfg c t plain es).info)) = false := by
    cases key : cfg.key with
    | none => rfl
    | some k =>
      unfold outgoing
      simp [MACKey.rejects, key]
  unfold readExternalHead
  simp [note, authentic, Faults.none]

namespace InStep
variable (h : InStep cfg c s es)
include h

lemma parse : (parseChain c (encode c es)).entries = es ∧ (parseChain c (encode c es)).err = none ∧
    (parseChain c (encode c es)).torn = false := parseChain_encode h.chain

lemma validEntries_eq : validEntries c s.file = es := by
  rw [h.file]
  exact h.parse.1

lemma validData_eq : validData c s.file = encode c es := by
  rw [h.file]
  exact take_validBytes_whole h.parse.2.1 h.parse.2.2

lemma secondary_eq : s.storage.secondary cfg = some (encode c es) := by
  obtain ⟨t, note, object⟩ := h.stored
  exact secondary_outgoing note object

lemma notes : s.storage.Notes es := by
  obtain ⟨t, note, -⟩ := h.stored
  exact ⟨_, note, outgoing_info _ _ _ _ _⟩

lemma sound : (checked cfg (parseChain c (encode c es))).err = none := by
  refine checked_err.mpr ⟨h.parse.2.1, ?_⟩
  rw [h.parse.1]
  exact h.authentic

lemma readLocal_eq : readLocal cfg c s.file = some (checked cfg (parseChain c (encode c es))) := by
  rw [h.file]
  obtain ⟨e, es', rfl⟩ := List.exists_cons_of_ne_nil h.nonempty
  unfold readLocal
  split
  · simp_all
  next empty => simp [encode] at empty
  next same =>
    cases same
    rfl

lemma silent (chain : Chain c (es ++ a)) : ¬ NoteObjects cfg .none s.storage (es ++ a) := by
  by_cases empty : a = []
  · subst empty
    rw [List.append_nil]
    rintro ⟨head, read, objects⟩
    obtain ⟨t, note, -⟩ := h.stored
    rw [readExternalHead_outgoing note] at read
    cases read
    obtain ⟨ledger, seq, hash⟩ := outgoing_info cfg c t (encode c es) es
    simp [ledger, seq, hash] at objects
  · exact h.notes.silent chain h.nonempty empty

end InStep

lemma push_inStep {force st} (chain : Chain c es) (nonempty : es ≠ [])
    (authentic : ∀ k ∈ cfg.key, ∀ e ∈ es, e.mac ≠ "" → k.entryOK e = true) (allowed : force = false → ¬ NoteObjects cfg .none st es) :
    (pushExternal cfg c force .none now (some (encode c es)) st).result = .ok () ∧
      InStep cfg c ⟨some (encode c es), (pushExternal cfg c force .none now (some (encode c es)) st).storage⟩ es := by
  obtain ⟨entries, valid, torn⟩ := parseChain_encode chain
  rw [push_working valid (by rwa [entries]) (by rwa [entries]), take_validBytes_whole valid torn, entries]
  refine ⟨rfl, chain, nonempty, authentic, rfl, now, ?_, ?_⟩
  · exact Storage.removeOther_note _ _
  · exact Storage.get_removeOther_put _ _ _ _

structure Database.Confirms (db : Database) (es : List Entry) : Prop where
  id : db.id = ledgerID es
  rows : db.rows = es.map (⟨·, true⟩)

lemma Database.Confirms.export_eq (h : db.Confirms es) : db.export' = es := by
  simp [Database.export', h.rows, List.filter_map, Function.comp_def]

lemma Database.Confirms.entries (h : db.Confirms es) : db.rows.map (·.entry) = es := by
  simp [h.rows, Function.comp_def]

lemma zip_self_agrees (es : List Entry) : ((es.zip es).any fun (x, y) => x.hash ≠ y.hash) = false := by
  rw [List.any_eq_false]
  rintro ⟨x, y⟩ mem
  obtain ⟨n, lt, eq⟩ := List.getElem_of_mem mem
  simp only [List.getElem_zip, Prod.mk.injEq] at eq
  simp [← eq.1, ← eq.2]

namespace InStep
variable (h : InStep cfg c s es)
include h

lemma commit_prepared {entries fresh} (prepared : Prepared cfg c .none entries s.file fresh) :
    ∃ s', Erasure.commit cfg c .none now entries s = (.ok (), s') ∧ selectFresh es entries = .ok fresh ∧ InStep cfg c s' (es ++ fresh) := by
  obtain ⟨file, st⟩ := s
  have held := h.validEntries_eq
  have data := h.validData_eq
  obtain rfl : file = some (encode c es) := h.file
  have torn : (parseChain c ((some (encode c es)).getD [])).torn = false := h.parse.2.2
  have chain := prepared.chain
  have selected := prepared.selected
  rw [held] at chain selected
  have authentic : ∀ k ∈ cfg.key, ∀ e ∈ es ++ fresh, e.mac ≠ "" → k.entryOK e = true := by
    intro k key e mem coded
    rcases List.mem_append.mp mem with old | new
    · exact h.authentic k key e old coded
    · exact prepared.authentic k key e new
  obtain ⟨ok, inStep⟩ := @push_inStep cfg c now (es ++ fresh) false st chain (by simp [h.nonempty]) authentic fun _ => h.silent chain
  refine ⟨_, ?_, selected, inStep⟩
  by_cases empty : fresh = []
  · obtain ⟨t, -, -, whole, eq⟩ := @Prepared.commit_held cfg c .none now _ st entries fresh prepared empty
    rw [empty, List.append_nil] at ok ⊢
    rw [eq, whole torn, ok]
    rfl
  · obtain ⟨t, same, eq⟩ := @Prepared.commit_fresh cfg c .none now _ st entries fresh prepared empty
    rcases prepared.appendLocal_eq same empty with ⟨-, -, -, appended⟩ | ⟨-, close, -⟩ | ⟨why, -⟩
    · rw [data, ← encode_append] at appended
      rw [eq, appended]
      simp only [ok]
    · cases close
    · cases (why ⟨rfl, rfl, rfl, rfl⟩).2

lemma commit (entries : List Entry) :
    (∃ err, Erasure.commit cfg c .none now entries s = (.error err, s)) ∨
    ∃ fresh s', Erasure.commit cfg c .none now entries s = (.ok (), s') ∧ selectFresh es entries = .ok fresh ∧ InStep cfg c s' (es ++ fresh) := by
  by_cases given : entries = []
  · refine .inr ⟨[], s, by simp [Erasure.commit, given], by rw [given]; rfl, by rwa [List.append_nil]⟩
  by_cases unprepared : ∀ fresh, ¬ Prepared cfg c .none entries s.file fresh
  · obtain ⟨⟨err, failed⟩, storage, -, whole⟩ := @commit_unprepared cfg c .none now s.file s.storage entries given unprepared
    have torn : (parseChain c (s.file.getD [])).torn = false := by
      rw [h.file]
      exact h.parse.2.2
    have file := whole torn
    refine .inl ⟨err, Prod.ext failed ?_⟩
    generalize Erasure.commit cfg c .none now entries s = r at storage file
    obtain ⟨_, _, _⟩ := r
    simp_all
  · obtain ⟨fresh, prepared⟩ := by simpa only [not_forall, not_not] using unprepared
    obtain ⟨s', committed⟩ := @InStep.commit_prepared cfg c now es s h entries fresh prepared
    exact .inr ⟨fresh, s', committed⟩

lemma abort (held : es = b ++ a) (more : b ≠ []) (entries : a ≠ []) : InStep cfg c (Erasure.abort cfg c now a s) b := by
  subst held
  have chain : Chain c b := (continues_append.mp h.chain).1
  have local' := h.readLocal_eq
  have sound := h.sound
  unfold Erasure.abort
  rw [local']
  have keep : (b ++ a).take ((b ++ a).length - a.length) = b := by simp
  have tail : (b ++ a).drop ((b ++ a).length - a.length) = a := by simp
  have cut : (encode c (b ++ a)).take (encode c b).length = encode c b := by rw [encode_append]; simp
  simp only [sound, checked_entries, h.parse.1, Option.isSome_none, List.isEmpty_eq_false_iff.mpr entries, Bool.or_self,
    Bool.false_eq_true, if_false, show ¬ (b ++ a).length < a.length by simp, keep, tail, if_true, h.file, Option.map_some, cut]
  exact (push_inStep chain more (fun k key e mem => h.authentic k key e (List.mem_append_left _ mem)) (fun force => by cases force)).2

lemma reconcileExternal : InStep cfg c ⟨s.file, (Erasure.reconcileExternal cfg c now s.file s.storage).2.2⟩ es := by
  have same : InStep cfg c ⟨s.file, s.storage⟩ es := h
  have pushed : InStep cfg c ⟨s.file, (pushExternal cfg c false .none now s.file s.storage).storage⟩ es := by
    rw [h.file]
    refine (push_inStep h.chain h.nonempty h.authentic fun _ => ?_).2
    simpa using h.silent (a := []) (by simpa using h.chain)
  unfold Erasure.reconcileExternal
  simp only
  split
  · exact same
  · repeat' split
    all_goals exact pushed
  · repeat' split
    all_goals first | exact same | exact pushed

lemma healLocal_eq (confirms : db.Confirms es) : healLocal cfg c db s.file = s.file := by
  unfold healLocal
  simp only [h.readLocal_eq, h.sound, checked_torn, h.parse.2.2, Option.isSome_none, Bool.false_eq_true, if_false,
    h.validEntries_eq, confirms.id, ne_eq, not_true_eq_false, and_false]

lemma reconcile {f} (confirms : db.Confirms es) :
    (Erasure.reconcile cfg c readSeal f now db s).db = db ∧ InStep cfg c (Erasure.reconcile cfg c readSeal f now db s).copies es := by
  have settle : f.commit.settle db db = db := by
    unfold Outcome.settle
    split <;> simp
  unfold Erasure.reconcile
  simp only [confirms.export_eq, h.healLocal_eq confirms, h.validEntries_eq, zip_self_agrees, Nat.lt_irrefl, decide_false, Bool.false_and, Bool.false_eq_true, if_false,
    settle, reduceCtorEq]
  split
  · exact ⟨rfl, h⟩
  · exact ⟨rfl, h.reconcileExternal⟩

end InStep

lemma ledgerAppends_eq {db tx as} (appended : ledgerAppends cfg c db as = some tx) :
    ∃ a : List Entry, tx.id = db.id ∧ tx.rows = db.rows ++ a.map (⟨·, false⟩) ∧ ∀ e ∈ a, headSeq (db.rows.map (·.entry)) < e.seq := by
  induction as generalizing db with
  | nil =>
    cases appended
    exact ⟨[], rfl, by simp, by simp⟩
  | cons x as ih =>
    obtain ⟨next, first, rest⟩ := Option.bind_eq_some_iff.mp appended
    unfold ledgerAppend at first
    split at first
    · obtain ⟨k, -, rfl⟩ := Option.map_eq_some_iff.mp first
      obtain ⟨a, id, rows, later⟩ := ih rest
      have head : headSeq ((db.rows ++ [(⟨appendedEntry k c db x, false⟩ : Row)]).map (·.entry)) = headSeq (db.rows.map (·.entry)) + 1 := by
        simp [headSeq, appendedEntry]
      refine ⟨appendedEntry k c db x :: a, id, by simpa using rows, fun e mem => ?_⟩
      rcases List.mem_cons.mp mem with rfl | mem
      · change _ < headSeq _ + 1
        omega
      · have := later e mem
        simp only [head] at this
        omega
    · cases first

lemma pending_append {db tx : Database} (confirmed : db.Confirms es) (rows : tx.rows = db.rows ++ a.map (⟨·, false⟩)) :
    tx.pending = a := by
  simp [Database.pending, rows, confirmed.rows, List.filter_map, Function.comp_def]

lemma confirmRows_eq (hashes : List String) (rows : List Row) :
    (confirmRows hashes rows).1 = rows.map fun r => { r with confirmed := r.confirmed || decide (r.entry.hash ∈ hashes) } := by
  induction hashes generalizing rows with
  | nil => simp [confirmRows]
  | cons hash hashes ih =>
    simp only [confirmRows, ih, List.map_map]
    refine List.map_congr_left fun r _ => ?_
    unfold Row.confirm
    cases confirmed : r.confirmed <;> by_cases same : r.entry.hash = hash <;> simp [confirmed, same]

lemma ledgerConfirmChecked_eq {db tx tx' : Database} (held : es ≠ []) (confirmed : db.Confirms es) (id : tx.id = db.id)
    (rows : tx.rows = db.rows ++ a.map (⟨·, false⟩)) (checked : ledgerConfirmChecked tx (a.map (·.hash)) = some tx') :
    tx'.Confirms (es ++ a) := by
  unfold ledgerConfirmChecked at checked
  simp only at checked
  repeat' split at checked
  all_goals cases checked
  obtain ⟨e, es', rfl⟩ := List.exists_cons_of_ne_nil held
  refine ⟨id.trans confirmed.id, ?_⟩
  simp only [confirmRows_eq, rows, confirmed.rows, List.map_append, List.map_map]
  congr 1
  refine List.map_congr_left fun e mem => ?_
  simp only [Function.comp_apply, Bool.false_or, Row.mk.injEq, true_and, decide_eq_true_eq]
  exact List.mem_map_of_mem mem

/-- A commit that reports an error has not been made, and nothing comes between it and taking its entries back. -/
def Step.Orderly (s : System) : Step → Prop
  | .prepare .. => s.aborting = []
  | .transact _ f _ _ => s.aborting = [] ∧ f.commit ≠ .failed true
  | .abort .. => True

/-- Both copies hold the database's ledger, and what is still to be taken back. -/
structure System.Kept (cfg : Config) (c : Codec) (s : System) (es : List Entry) : Prop where
  confirms : s.db.Confirms es
  copies : s.aborting = [] ∧ InStep cfg c s.copies es ∨
    ∃ call a, s.aborting = [(call, a)] ∧ a ≠ [] ∧ es ≠ [] ∧ InStep cfg c s.copies (es ++ a)
  reported : ∀ e ∈ s.reported, e ∈ es

/-- The copies are in step with the database, and no call is under way. -/
structure System.Start (cfg : Config) (c : Codec) (s : System) : Prop where
  kept : ∃ es, s.Kept cfg c es
  ready : s.ready = []
  aborting : s.aborting = []

/-- The entry is in the local and in the secondary copy. -/
def Copies.Hold (cfg : Config) (c : Codec) (s : Copies) (e : Entry) : Prop :=
  e ∈ validEntries c s.file ∧ ∃ b, s.storage.secondary cfg = some b ∧ e ∈ (parseChain c b).entries

def Database.Confirmed (db : Database) (e : Entry) : Prop := ⟨e, true⟩ ∈ db.rows

lemma ledgerQueryAfter_cases {f : TxFaults} {as : List Append} (h : InStep cfg c s es) (confirms : db.Confirms es)
    (unmade : f.commit ≠ .failed true) : let t := ledgerQueryAfter cfg c f now as db s
    (t.reported = true ∧ t.abort = false ∧ t.db.Confirms (es ++ t.entries) ∧ InStep cfg c t.copies (es ++ t.entries)) ∨
    (t.reported = false ∧ t.abort = false ∧ t.db = db ∧ InStep cfg c t.copies es) ∨
    (t.reported = false ∧ t.abort = true ∧ t.db = db ∧ t.entries ≠ [] ∧ InStep cfg c t.copies (es ++ t.entries)) := by
  intro t
  have unsettled : ∀ made after, f.commit = .failed made → f.commit.settle db after = db := by
    intro made after failed
    cases made with
    | true => exact absurd failed unmade
    | false => rw [failed]; rfl
  unfold t ledgerQueryAfter
  split
  · exact .inr (.inl ⟨rfl, rfl, rfl, h⟩)
  next tx started =>
    have appended : ledgerAppends cfg c db as = some tx := by
      split at started
      · cases started
      · exact started
    obtain ⟨a, id, rows, later⟩ := ledgerAppends_eq appended
    have pending : tx.pending = a := pending_append confirms rows
    simp only [pending]
    split
    · exact .inr (.inl ⟨rfl, rfl, rfl, h⟩)
    split
    · rename_i empty
      obtain rfl : a = [] := by simpa using empty
      have same : tx = db := by
        obtain ⟨_, _⟩ := tx
        obtain ⟨_, _⟩ := db
        simp_all
      subst same
      rw [List.append_nil]
      cases outcome : f.commit with
      | done => exact .inl ⟨by simp, rfl, confirms, h⟩
      | failed made => exact .inr (.inl ⟨by simp, rfl, by rw [← outcome]; exact unsettled made _ outcome, h⟩)
    rename_i nonempty
    have nonempty : a ≠ [] := by simpa using nonempty
    split
    · exact .inr (.inl ⟨rfl, rfl, rfl, h⟩)
    rcases @InStep.commit cfg c now es s h a with ⟨err, refused⟩ | ⟨fresh, s', ok, selected, inStep⟩
    · rw [refused]
      exact .inr (.inl ⟨rfl, rfl, rfl, h⟩)
    rw [ok]
    have all : fresh = a := by
      rw [(selectFresh_ok selected).1]
      refine List.filter_eq_self.mpr fun e mem => ?_
      have later := later e mem
      rw [confirms.entries] at later
      simp only [Bool.not_eq_true', decide_eq_false_iff_not]
      omega
    subst all
    simp only
    split
    · exact .inr (.inl ⟨rfl, rfl, rfl, inStep.abort rfl h.nonempty nonempty⟩)
    rename_i tx' confirmed
    have checked : ledgerConfirmChecked tx (fresh.map (·.hash)) = some tx' := by
      split at confirmed
      · cases confirmed
      · exact confirmed
    have confirms' := ledgerConfirmChecked_eq h.nonempty confirms id rows checked
    cases outcome : f.commit with
    | done => exact .inl ⟨by simp, by simp, confirms', inStep⟩
    | failed made =>
      exact .inr (.inr ⟨by simp, by simp, by rw [← outcome]; exact unsettled made _ outcome, nonempty, inStep⟩)

lemma System.Kept.step {s t : System} {l : Step} (h : ∃ es, s.Kept cfg c es)
    (orderly : l.Orderly s) (step : s.step cfg c readSeal l = some t) : ∃ es, t.Kept cfg c es := by
  obtain ⟨es, h⟩ := h
  cases l with
  | prepare call f now =>
    obtain ⟨-, inStep⟩ | ⟨_, _, some', -⟩ := h.copies
    · obtain ⟨db, copies⟩ := @InStep.reconcile cfg c now es s.copies s.db readSeal inStep f h.confirms
      cases step
      exact ⟨es, by rw [db]; exact h.confirms, .inl ⟨orderly, copies⟩, h.reported⟩
    · rw [orderly] at some'
      cases some'
  | transact call f now as =>
    obtain ⟨none, unmade⟩ := orderly
    obtain ⟨-, inStep⟩ | ⟨_, _, some', -⟩ := h.copies
    · simp only [System.step] at step
      split at step
      · cases step
        rcases @ledgerQueryAfter_cases cfg c now es s.copies s.db f as inStep h.confirms unmade with
          ⟨reported, abort, confirms, copies⟩ | ⟨reported, abort, db, copies⟩ | ⟨reported, abort, db, nonempty, copies⟩
        · refine ⟨_, confirms, .inl ⟨by simp [abort, none], copies⟩, fun e mem => ?_⟩
          simp only [reported, if_true, List.mem_append] at mem
          rcases mem with new | old
          · exact List.mem_append_right _ new
          · exact List.mem_append_left _ (h.reported e old)
        · exact ⟨es, by rw [db]; exact h.confirms, .inl ⟨by simp [abort, none], copies⟩, by simpa [reported] using h.reported⟩
        · exact ⟨es, by rw [db]; exact h.confirms, .inr ⟨call, _, by simp [abort, none], nonempty, inStep.nonempty, copies⟩,
            by simpa [reported] using h.reported⟩
      · cases step
    · rw [none] at some'
      cases some'
  | abort call now =>
    simp only [System.step] at step
    split at step
    · cases step
    next entry found =>
      cases step
      obtain ⟨none, -⟩ | ⟨call', a, some', nonempty, more, inStep⟩ := h.copies
      · simp [none] at found
      have mem := List.mem_of_find?_eq_some found
      rw [some', List.mem_singleton] at mem
      subst mem
      exact ⟨es, h.confirms, .inl ⟨by simp [some'], inStep.abort rfl more nonempty⟩, h.reported⟩

lemma System.Kept.hold {s : System} (h : s.Kept cfg c es) {e : Entry} (mem : e ∈ es) : s.copies.Hold cfg c e := by
  have holds : ∀ all, InStep cfg c s.copies all → e ∈ all → s.copies.Hold cfg c e := by
    intro all inStep mem
    refine ⟨by rwa [inStep.validEntries_eq], _, inStep.secondary_eq, ?_⟩
    rwa [inStep.parse.1]
  obtain ⟨-, inStep⟩ | ⟨call, a, -, -, -, inStep⟩ := h.copies
  · exact holds es inStep mem
  · exact holds _ inStep (List.mem_append_left a mem)

/-- In every run in which no commit that reports an error was made and nothing comes between such a commit and taking its entries back,
every confirmed entry is in both copies, and what was reported as done is confirmed. -/
theorem confirmed_stays_in_copies {cfg : Config} {c : Codec} {readSeal : String → Option (Int × String)} {start s : System}
    {steps : List Step} (started : start.Start cfg c)
    (run : Run (fun s l t => l.Orderly s ∧ s.step cfg c readSeal l = some t) start steps s) :
    (∀ e, s.db.Confirmed e → s.copies.Hold cfg c e) ∧ ∀ e ∈ s.reported, s.db.Confirmed e ∧ s.copies.Hold cfg c e := by
  have kept : ∃ es, s.Kept cfg c es := by
    refine run.invariant (P := fun s => ∃ es, s.Kept cfg c es) ?_ started.kept
    rintro s l t ⟨orderly, step⟩ h
    exact System.Kept.step h orderly step
  obtain ⟨es, h⟩ := kept
  have confirmed : ∀ e, s.db.Confirmed e ↔ e ∈ es := by
    intro e
    rw [Database.Confirmed, h.confirms.rows]
    simp
  refine ⟨fun e conf => h.hold ((confirmed e).mp conf), fun e mem => ?_⟩
  exact ⟨(confirmed e).mpr (h.reported e mem), h.hold (h.reported e mem)⟩

lemma outgoing_described (cfg : Config) (c : Codec) (now : Int) (plain : Bytes) (es : List Entry) :
    (outgoing cfg c now plain es).info.object = (outgoing cfg c now plain es).name ∧
    (outgoing cfg c now plain es).info.objectSHA256 = c.sha256 (outgoing cfg c now plain es).object ∧
    (outgoing cfg c now plain es).info.plainSHA256 = c.sha256 plain ∧
    (outgoing cfg c now plain es).info.cipherFP = (cfg.cipher.map (·.fingerprint)).getD "" := by
  unfold outgoing
  cases cfg.cipher <;> exact ⟨rfl, rfl, rfl, rfl⟩

def ReconcileFaults.none : ReconcileFaults := ⟨false, false, .none, .done⟩

lemma InStep.available (h : InStep cfg c s es) (confirms : db.Confirms es) :
    Erasure.reconcile cfg c readSeal .none now db s = ⟨true, db, s⟩ := by
  have settled : db.pending = [] := by
    simp [Database.pending, confirms.rows, List.filter_map]
  have external : Erasure.reconcileExternal cfg c now s.file s.storage = (true, false, s.storage) := by
    obtain ⟨t, note, object⟩ := h.stored
    obtain ⟨ledger, seq, hash⟩ := outgoing_info cfg c t (encode c es) es
    obtain ⟨name, digest, plain, fingerprint⟩ := outgoing_described cfg c t (encode c es) es
    unfold Erasure.reconcileExternal
    simp only [readExternalHead_outgoing note, h.validEntries_eq, h.validData_eq, ledger, seq, hash, plain, fingerprint, objectOK, name,
      object, digest]
    simp
  unfold Erasure.reconcile
  simp only [ReconcileFaults.none, confirms.export_eq, settled, h.healLocal_eq confirms, h.validEntries_eq, zip_self_agrees,
    h.chain]
  simp [Outcome.settle, external]

lemma chain_appendedEntry {k x} (chain : Chain c es) (nonempty : es ≠ []) (confirms : db.Confirms es)
    (kind : x.kind ∈ appendedKinds) (hash : (appendedEntry k c db x).hash ≠ "") : Chain c (es ++ [appendedEntry k c db x]) := by
  obtain ⟨last, hlast⟩ : ∃ last, es.getLast? = some last := Option.isSome_iff_exists.mp (by simp [nonempty])
  have held := confirms.entries
  have mem := List.mem_of_getLast? hlast
  have ledger' := Chain.ledgerID chain mem
  have numbered : headSeq es = last.seq := by simp [headSeq, hlast]
  have positive := chain.headSeq
  have ledgerNe := (Continues.mem chain mem).1
  have seq : (appendedEntry k c db x).seq = last.seq + 1 := by
    change headSeq (db.rows.map (·.entry)) + 1 = _
    rw [held, numbered]
  have prev : (appendedEntry k c db x).prev = last.hash := by
    change ((db.rows.map (·.entry)).getLast?.map (·.hash)).getD genesisPrev = _
    rw [held, hlast]
    rfl
  have ledger : (appendedEntry k c db x).ledger = last.ledger := confirms.id.trans ledger'.symm
  have named : (appendedEntry k c db x).kind ≠ "" := by
    change x.kind ≠ ""
    rintro empty
    simp [empty, appendedKinds] at kind
  have digest : computeHash c (appendedEntry k c db x) = (appendedEntry k c db x).hash := rfl
  generalize appendedEntry k c db x = e at *
  rw [Chain, continues_append, hlast]
  refine ⟨chain, ?_, trivial⟩
  simp only [checkLink, Option.or, seq, prev, ledger, hash, named, digest, ledgerNe]
  simp only [show ¬ last.seq + 1 < 1 by omega]
  simp

lemma ledgerQueryAfter_one {k : MACKey} {x : Append} {outcome : Outcome} (h : InStep cfg c s es)
    (confirms : db.Confirms es) (key : cfg.key = some k) (kind : x.kind ∈ appendedKinds)
    (authentic : k.entryOK (appendedEntry k c db x) = true) :
    ∃ s', ledgerQueryAfter cfg c ⟨false, false, false, outcome⟩ now [x] db s =
        ⟨outcome.settle db ⟨db.id, (es ++ [appendedEntry k c db x]).map (⟨·, true⟩)⟩, s', [appendedEntry k c db x], outcome = .done,
          outcome ≠ .done⟩ ∧ InStep cfg c s' (es ++ [appendedEntry k c db x]) := by
  have hash : (appendedEntry k c db x).hash ≠ "" := by
    intro empty
    simp [MACKey.entryOK, empty] at authentic
  have chain := chain_appendedEntry h.chain h.nonempty confirms kind hash
  have appended : ledgerAppends cfg c db [x] = some ⟨db.id, db.rows ++ [⟨appendedEntry k c db x, false⟩]⟩ := by
    simp [ledgerAppends, ledgerAppend, kind, key]
  have pending : (⟨db.id, db.rows ++ [⟨appendedEntry k c db x, false⟩]⟩ : Database).pending = [appendedEntry k c db x] :=
    pending_append confirms rfl
  have later : ¬ (appendedEntry k c db x).seq ≤ headSeq es := by
    change ¬ headSeq (db.rows.map (·.entry)) + 1 ≤ _
    rw [confirms.entries]
    omega
  have prepared : Prepared cfg c .none [appendedEntry k c db x] s.file [appendedEntry k c db x] := by
    refine ⟨by simp, rfl, ?_, ?_, ?_, by rwa [h.validEntries_eq]⟩
    · rw [h.file]
      exact h.sound
    · simp [h.validEntries_eq, selectFresh, later, Except.map]
    · intro k' key' e mem
      obtain rfl : k = k' := by simpa [key] using key'
      obtain rfl := List.mem_singleton.mp mem
      exact authentic
  obtain ⟨s', committed, -, inStep⟩ := @InStep.commit_prepared cfg c now es s h _ _ prepared
  refine ⟨s', ?_, inStep⟩
  have checked : ledgerConfirmChecked ⟨db.id, db.rows ++ [⟨appendedEntry k c db x, false⟩]⟩ [(appendedEntry k c db x).hash] =
      some ⟨db.id, (es ++ [appendedEntry k c db x]).map (⟨·, true⟩)⟩ := by
    simp [ledgerConfirmChecked, confirmRows, confirms.rows, Row.confirm, List.filter_map, Function.comp_def]
  unfold ledgerQueryAfter
  simp only [appended, pending, committed, checked, Bool.false_eq_true, if_false, List.map_cons, List.map_nil]
  simp

/-- A key, and no recipients. -/
def codeKey : MACKey := ⟨fun _ => "code", fun _ => "note"⟩

def codedConfig : Config := ⟨some codeKey, none⟩

def firstSystem (c : Codec) (e : Entry) : System where
  db := ⟨e.ledger, [⟨e, true⟩]⟩
  copies := ⟨some (encode c [e]), (pushExternal codedConfig c false .none 0 (some (encode c [e])) emptyStorage).storage⟩
  ready := []
  aborting := []
  reported := []

def erasure : Append := ⟨"erase", "t", "s", 0, "two"⟩

def erasureEntry (c : Codec) (e : Entry) : Entry := appendedEntry codeKey c (firstSystem c e).db erasure

section
variable {e : Entry}

lemma firstSystem_inStep (chain : Chain c [e]) (plain : e.mac = "") : InStep codedConfig c (firstSystem c e).copies [e] :=
  (push_inStep chain (by simp) (by simp [plain]) fun _ => silent_emptyStorage).2

lemma firstSystem_confirms : (firstSystem c e).db.Confirms [e] := ⟨rfl, rfl⟩

lemma firstSystem_start (chain : Chain c [e]) (plain : e.mac = "") : (firstSystem c e).Start codedConfig c :=
  ⟨⟨[e], firstSystem_confirms, .inl ⟨rfl, firstSystem_inStep chain plain⟩, by simp [firstSystem]⟩, rfl, rfl⟩

lemma firstSystem_transact (chain : Chain c [e]) (plain : e.mac = "") (hash : (erasureEntry c e).hash ≠ "") (outcome : Outcome) :
    ∃ s₁ s₂, (firstSystem c e).step codedConfig c readSeal (.prepare 0 .none 0) = some s₁ ∧
      s₁.step codedConfig c readSeal (.transact 0 ⟨false, false, false, outcome⟩ 0 [erasure]) = some s₂ ∧ s₁.aborting = [] ∧
      s₂.db = outcome.settle (firstSystem c e).db ⟨e.ledger, [⟨e, true⟩, ⟨erasureEntry c e, true⟩]⟩ ∧
      s₂.aborting = (if outcome = .done then [] else [(0, [erasureEntry c e])]) ∧
      s₂.reported = (if outcome = .done then [erasureEntry c e] else []) ∧
      InStep codedConfig c s₂.copies ([e] ++ [erasureEntry c e]) := by
  have inStep := firstSystem_inStep chain plain
  have available := @InStep.available codedConfig c 0 [e] _ (firstSystem c e).db readSeal inStep firstSystem_confirms
  have authentic : codeKey.entryOK (erasureEntry c e) = true := by
    have code : (erasureEntry c e).mac = "code" := rfl
    simp [MACKey.entryOK, code, hash, codeKey]
  obtain ⟨s', eq, inStep'⟩ := @ledgerQueryAfter_one codedConfig c 0 [e] _ _ codeKey erasure outcome inStep firstSystem_confirms rfl
    (by decide) authentic
  refine ⟨{ firstSystem c e with ready := [0] },
    ⟨outcome.settle (firstSystem c e).db ⟨e.ledger, [⟨e, true⟩, ⟨erasureEntry c e, true⟩]⟩, s', [],
      if outcome = .done then [] else [(0, [erasureEntry c e])], if outcome = .done then [erasureEntry c e] else []⟩,
    ?_, ?_, rfl, rfl, rfl, rfl, inStep'⟩
  · simp only [System.step, available]
    rfl
  · simp only [System.step, List.mem_singleton, if_true, eq]
    cases outcome <;> simp [firstSystem, erasureEntry]

lemma run_committed (chain : Chain c [e]) (plain : e.mac = "") (hash : (erasureEntry c e).hash ≠ "") :
    ∃ s, Run (fun s l t => l.Orderly s ∧ s.step codedConfig c readSeal l = some t) (firstSystem c e)
        [.prepare 0 .none 0, .transact 0 ⟨false, false, false, .done⟩ 0 [erasure]] s ∧ erasureEntry c e ∈ s.reported := by
  obtain ⟨s₁, s₂, prepared, transacted, idle, -, -, reported, -⟩ := @firstSystem_transact c readSeal e chain plain hash .done
  exact ⟨s₂, .cons ⟨rfl, prepared⟩ (.cons ⟨⟨idle, by simp⟩, transacted⟩ (.nil _)), by simp [reported]⟩

lemma run_failed (chain : Chain c [e]) (plain : e.mac = "") (hash : (erasureEntry c e).hash ≠ "") :
    ∃ s, Run (fun s l t => s.step codedConfig c readSeal l = some t) (firstSystem c e)
        [.prepare 0 .none 0, .transact 0 ⟨false, false, false, .failed true⟩ 0 [erasure], .abort 0 0] s ∧
      s.db.Confirmed (erasureEntry c e) ∧ InStep codedConfig c s.copies [e] := by
  obtain ⟨s₁, s₂, prepared, transacted, -, db, aborting, -, inStep⟩ := @firstSystem_transact c readSeal e chain plain hash (.failed true)
  have back := @InStep.abort codedConfig c 0 _ _ _ _ inStep rfl (by simp) (by simp)
  have aborted : s₂.step codedConfig c readSeal (.abort 0 0) =
      some { s₂ with copies := abort codedConfig c 0 [erasureEntry c e] s₂.copies, aborting := [] } := by
    simp [System.step, aborting]
  exact ⟨_, .cons prepared (.cons transacted (.cons aborted (.nil _))), by simp [Database.Confirmed, db, Outcome.settle], back⟩

lemma erasureEntry_ne : erasureEntry c e ≠ e := by
  intro same
  have seq : headSeq [e] + 1 = e.seq := congrArg Entry.seq same
  simp only [headSeq, List.getLast?_singleton, Option.map_some, Option.getD_some] at seq
  omega

end

/-- An erasure that is committed is reported, confirmed and in both copies. -/
theorem erasure_is_kept : ∃ s, Run (fun s l t => l.Orderly s ∧ s.step codedConfig plainCodec (fun _ => none) l = some t)
      (firstSystem plainCodec firstEntry) [.prepare 0 .none 0, .transact 0 ⟨false, false, false, .done⟩ 0 [erasure]] s ∧
    erasureEntry plainCodec firstEntry ∈ s.reported ∧
    s.db.Confirmed (erasureEntry plainCodec firstEntry) ∧ s.copies.Hold codedConfig plainCodec (erasureEntry plainCodec firstEntry) := by
  obtain ⟨s, run, mem⟩ := @run_committed plainCodec (fun _ => none) firstEntry firstEntry_chain rfl (computeHash_ne_empty _)
  exact ⟨s, run, mem, (confirmed_stays_in_copies (firstSystem_start firstEntry_chain rfl) run).2 _ mem⟩

/-- The commit fails although it was made, and the entry is taken back out of both copies: it is confirmed and in neither. -/
theorem confirmed_erasure_is_taken_back : ∃ s, Run (fun s l t => s.step codedConfig plainCodec (fun _ => none) l = some t)
      (firstSystem plainCodec firstEntry)
      [.prepare 0 .none 0, .transact 0 ⟨false, false, false, .failed true⟩ 0 [erasure], .abort 0 0] s ∧
    s.db.Confirmed (erasureEntry plainCodec firstEntry) ∧
    erasureEntry plainCodec firstEntry ∉ validEntries plainCodec s.copies.file ∧
    ∃ b, s.copies.storage.secondary codedConfig = some b ∧ erasureEntry plainCodec firstEntry ∉ (parseChain plainCodec b).entries := by
  obtain ⟨s, run, confirmed, inStep⟩ := @run_failed plainCodec (fun _ => none) firstEntry firstEntry_chain rfl (computeHash_ne_empty _)
  have missing : erasureEntry plainCodec firstEntry ∉ [firstEntry] := by simpa using erasureEntry_ne
  refine ⟨s, run, confirmed, ?_, _, inStep.secondary_eq, ?_⟩
  · rw [inStep.validEntries_eq]
    exact missing
  · rw [inStep.parse.1]
    exact missing

end StayConnect.Erasure
