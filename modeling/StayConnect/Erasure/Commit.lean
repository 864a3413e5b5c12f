import StayConnect.Erasure.Replicate

/-!
# What a commit leaves in the two copies

A commit that is prepared appends the entries that are not held yet to the file and replaces the secondary copy. Which operations
fail decides how far it comes; each way it can end is one case below (`commit_unprepared`, `commit_held`, `commit_fresh`). Two of them
leave something of a failed commit behind: a file that cannot be closed keeps the entries, and a note that was stored but not read
back keeps their head (`commit_durable_iff`).
-/

namespace StayConnect.Erasure
open Framing (Bytes)

variable {cfg : Config} {c : Codec} {f : Faults} {now : Int} {file : Option Bytes} {st : Storage} {entries fresh : List Entry}

def validEntries (c : Codec) (file : Option Bytes) : List Entry := (parseChain c (file.getD [])).entries

lemma chain_validEntries (c : Codec) (file : Option Bytes) : Chain c (validEntries c file) := (parseChain c (file.getD [])).chain

lemma headSeq_validEntries : headSeq (validEntries c file) = (validEntries c file).length := (chain_validEntries c file).headSeq

def validData (c : Codec) (file : Option Bytes) : Bytes := (file.getD []).take (parseChain c (file.getD [])).validBytes

/-- The push comes to write the note. -/
structure Reaches (cfg : Config) (f : Faults) (st : Storage) (es : List Entry) : Prop where
  read : f.readPush = false
  silent : ¬ NoteObjects cfg f st es
  encrypt : f.encrypt = false
  putObject : f.putObject = .done
  getObjectBack : f.getObjectBack = false

def Confirms (f : Faults) : Prop := f.putNote = .done ∧ f.getNoteBack = false

/-- The note is stored, and the push does not know. -/
def Unconfirmed (f : Faults) : Prop := f.putNote = .failedAfter ∨ (f.putNote = .done ∧ f.getNoteBack = true)

/-- How a push of a valid ledger can end. -/
inductive PushCase (cfg : Config) (c : Codec) (f : Faults) (now : Int) (plain : Bytes) (st : Storage) (r : Pushed) : Prop where
  | stored (reaches : Reaches cfg f st (parseChain c plain).entries) (confirms : Confirms f) (ok : r.result = .ok ())
      (note : r.storage.note =
        some (.note (outgoing cfg c now (plain.take (parseChain c plain).validBytes) (parseChain c plain).entries).info))
      (object : r.storage.get (outgoing cfg c now (plain.take (parseChain c plain).validBytes) (parseChain c plain).entries).name =
        some (outgoing cfg c now (plain.take (parseChain c plain).validBytes) (parseChain c plain).entries).object)
  | unconfirmed (reaches : Reaches cfg f st (parseChain c plain).entries) (unconfirmed : Unconfirmed f) (err : PushError)
      (failed : r.result = .error err)
      (note : r.storage.note =
        some (.note (outgoing cfg c now (plain.take (parseChain c plain).validBytes) (parseChain c plain).entries).info))
  | short (short : Reaches cfg f st (parseChain c plain).entries → ¬ Confirms f ∧ ¬ Unconfirmed f) (err : PushError)
      (failed : r.result = .error err) (note : r.storage.note = st.note)

lemma Storage.put_note (st : Storage) (name : ObjectName) (object : Bytes) : (st.put name object).note = st.note := by
  cases name <;> rfl

lemma Storage.get_removeOther_put (st : Storage) (name : ObjectName) (object : Bytes) (note : Option NoteFile) :
    (({ st.put name object with note } : Storage).removeOther name).get name = some object := by
  cases name <;> rfl

lemma Storage.get_put (st : Storage) (name : ObjectName) (object : Bytes) (note : Option NoteFile) :
    ({ st.put name object with note } : Storage).get name = some object := by
  cases name <;> rfl

lemma Storage.removeOther_note (st : Storage) (name : ObjectName) : (st.removeOther name).note = st.note := by
  cases name <;> rfl

lemma push_cases {plain} (valid : (parseChain c plain).err = none) (nonempty : (parseChain c plain).entries ≠ []) :
    PushCase cfg c f now plain st (pushExternal cfg c false f now (some plain) st) := by
  have started : ((parseChain c plain).err.isSome || (parseChain c plain).entries.isEmpty) = false := by simp [valid, nonempty]
  unfold pushExternal
  cases read : f.readPush with
  | true => exact .short (fun h => by simp [h.read] at read) _ rfl rfl
  | false =>
    simp only [started, Bool.false_eq_true, if_false]
    cases objection : overwriteError (readExternalHead cfg f st) (parseChain c plain).entries with
    | some err => exact .short (fun h => (h.silent (overwriteError_isSome.mp (by simp [objection]))).elim) err rfl rfl
    | none =>
      have silent : ¬ NoteObjects cfg f st (parseChain c plain).entries := by simp [← overwriteError_isSome, objection]
      cases encrypt : f.encrypt with
      | true => exact .short (fun h => by simp [h.encrypt] at encrypt) _ rfl rfl
      | false =>
        unfold writeOutgoing
        cases put : f.putObject with
        | failedBefore => exact .short (fun h => by simp [h.putObject] at put) _ rfl rfl
        | failedAfter => exact .short (fun h => by simp [h.putObject] at put) _ rfl (Storage.put_note _ _ _)
        | done =>
          cases back : f.getObjectBack with
          | true => exact .short (fun h => by simp [h.getObjectBack] at back) _ rfl (Storage.put_note _ _ _)
          | false =>
            have reaches : Reaches cfg f st (parseChain c plain).entries := ⟨read, silent, encrypt, put, back⟩
            cases note : f.putNote with
            | failedBefore => exact .short (fun _ => by simp [Confirms, Unconfirmed, note]) _ rfl (Storage.put_note _ _ _)
            | failedAfter => exact .unconfirmed reaches (.inl note) _ rfl rfl
            | done =>
              cases noteBack : f.getNoteBack with
              | true => exact .unconfirmed reaches (.inr ⟨note, noteBack⟩) _ rfl rfl
              | false =>
                simp only [Bool.false_eq_true, if_false]
                refine .stored reaches ⟨note, noteBack⟩ rfl ?_ ?_
                · simp only
                  split
                  · rfl
                  · rw [Storage.removeOther_note]
                · simp only
                  split
                  · exact Storage.get_put _ _ _ _
                  · exact Storage.get_removeOther_put _ _ _ _

/-- The local copy was read, and the entries that are not held yet are authentic and continue it. -/
structure Prepared (cfg : Config) (c : Codec) (f : Faults) (entries : List Entry) (file : Option Bytes) (fresh : List Entry) : Prop where
  given : entries ≠ []
  read : f.readLocal = false
  sound : (checked cfg (parseChain c (file.getD []))).err = none
  selected : selectFresh (validEntries c file) entries = .ok fresh
  authentic : ∀ k ∈ cfg.key, ∀ e ∈ fresh, k.entryOK e = true
  chain : Chain c (validEntries c file ++ fresh)

@[simp] lemma checked_entries (p : Parse c) : (checked cfg p).entries = p.entries := by
  unfold checked
  repeat' split
  all_goals rfl

@[simp] lemma checked_validBytes (p : Parse c) : (checked cfg p).validBytes = p.validBytes := by
  unfold checked
  repeat' split
  all_goals rfl

@[simp] lemma checked_torn (p : Parse c) : (checked cfg p).torn = p.torn := by
  unfold checked
  repeat' split
  all_goals rfl

lemma checked_err {p : Parse c} :
    (checked cfg p).err = none ↔ p.err = none ∧ ∀ k ∈ cfg.key, ∀ e ∈ p.entries, e.mac ≠ "" → k.entryOK e = true := by
  unfold checked
  cases cfg.key with
  | none => simp
  | some k =>
    cases err : p.err with
    | some e => simp [err]
    | none =>
      simp only
      split
      next e found =>
        have wrong := List.find?_some found
        have mem := List.mem_of_find?_eq_some found
        simp only [ne_eq, reduceCtorEq, true_and, false_iff, Option.mem_some, forall_eq']
        obtain ⟨coded, bad⟩ : e.mac ≠ "" ∧ k.entryOK e = false := by simpa using wrong
        exact fun all => by simp [all e mem coded] at bad
      next found =>
        simp only [err, true_and, Option.mem_some, forall_eq', true_iff]
        intro e mem coded
        simpa [coded] using List.find?_eq_none.mp found e mem

lemma parseChain_nil : (parseChain c []).entries = [] ∧ (parseChain c []).err = none ∧ (parseChain c []).validBytes = 0 := by
  simp [parseChain, lines, parseLines]

lemma commit_over (given : entries ≠ []) (read : f.readLocal = false) (sound : (checked cfg (parseChain c (file.getD []))).err = none) :
    ∃ t, commit cfg c f now entries ⟨file, st⟩ =
        commitOver cfg c f now entries (validEntries c file) (parseChain c (file.getD [])).validBytes ⟨t, st⟩ ∧
      t.getD [] = validData c file ∧ (t = none → file = none) ∧ ((parseChain c (file.getD [])).torn = false → t = file) := by
  have started : entries.isEmpty = false := by simpa using given
  obtain ⟨entriesNil, -, bytesNil⟩ := @parseChain_nil c
  unfold commit validEntries validData
  simp only [started, read, Bool.false_eq_true, if_false]
  match file with
  | none =>
    simp only [readLocal, Option.getD_none, entriesNil, bytesNil]
    exact ⟨none, rfl, rfl, fun _ => trivial, fun _ => rfl⟩
  | some [] =>
    simp only [readLocal, Option.getD_some, entriesNil, bytesNil]
    exact ⟨some [], rfl, rfl, nofun, fun _ => rfl⟩
  | some (ch :: rest) =>
    simp only [Option.getD_some] at sound
    simp only [readLocal, Option.getD_some, sound, Option.isSome_none, Bool.false_eq_true, if_false, checked_entries,
      checked_validBytes, checked_torn, Option.map_some]
    refine ⟨_, rfl, ?_, by split <;> exact nofun, fun whole => by simp [whole]⟩
    split
    · rfl
    next whole =>
      rw [take_validBytes_whole (checked_err.mp sound).1 (by simpa using whole)]
      rfl

variable {e : Entry} {es : List Entry}

/-- An entry continues another if it continues one of the same number and hash, and their ledgers are the same. -/
lemma checkLink_some {p q} (seq : q.seq = p.seq) (hash : q.hash = p.hash) (ledger : q.ledger = e.ledger) :
    checkLink c (some p) e = none ↔ e.ledger = p.ledger ∧ checkLink c (some q) e = none := by
  simp only [checkLink, seq, hash, ledger]
  by_cases same : e.ledger = p.ledger
  · simp [same]
  simp only [same, false_and, iff_false]
  split
  · simp
  · by_cases next : e.seq = p.seq + 1 <;> by_cases prev : e.prev = p.hash <;> simp [next, prev]

lemma extends_iff {held} (chain : Chain c held) (nonempty : fresh ≠ []) :
    (!held.isEmpty && decide (ledgerID fresh ≠ ledgerID held)) = false ∧ extendsHead c held fresh = true ↔ Chain c (held ++ fresh) := by
  rw [Chain, continues_append, Option.or_none]
  unfold extendsHead
  cases hlast : held.getLast? with
  | none =>
    rw [List.getLast?_eq_none_iff] at hlast
    subst hlast
    simp [Continues]
  | some h =>
    have heldNe : held ≠ [] := by rintro rfl; simp at hlast
    obtain ⟨e, es, rfl⟩ := List.exists_cons_of_ne_nil nonempty
    have ledger : h.ledger = ledgerID held := Chain.ledgerID chain (List.mem_of_getLast? hlast)
    have link := @checkLink_some c e h ⟨ledgerID (e :: es), h.seq, "", "", "", "", 0, "", h.hash, ""⟩ rfl rfl rfl
    rw [decide_eq_true_iff]
    simp only [List.isEmpty_eq_false_iff.mpr heldNe, Bool.not_false, Bool.true_and, decide_eq_false_iff_not, not_not, Option.map_some,
      Continues, chain, true_and, link, and_assoc, ledger]
    rfl

lemma selectFresh_ok {held} (h : selectFresh held entries = .ok fresh) :
    fresh = entries.filter (fun e => !decide (1 ≤ e.seq ∧ e.seq ≤ headSeq held)) ∧
      ∀ e ∈ entries, 1 ≤ e.seq ∧ e.seq ≤ headSeq held → hashAt held e.seq = some e.hash := by
  induction entries generalizing fresh with
  | nil =>
    cases h
    simp
  | cons e es ih =>
    unfold selectFresh at h
    split at h
    next old =>
      split at h
      · cases h
      rename_i same
      obtain ⟨rest, all⟩ := ih h
      refine ⟨by simpa [old] using rest, fun x hx => ?_⟩
      rcases List.mem_cons.mp hx with rfl | hx
      · exact fun _ => not_not.mp same
      · exact all x hx
    next new =>
      cases selected : selectFresh held es with
      | error err => simp [selected, Except.map] at h
      | ok rest =>
        obtain ⟨filtered, all⟩ := ih selected
        simp only [selected, Except.map, Except.ok.injEq] at h
        subst h
        refine ⟨by rw [List.filter_cons_of_pos (by rw [decide_eq_false new]; rfl), ← filtered], fun x hx => ?_⟩
        rcases List.mem_cons.mp hx with rfl | hx
        · exact fun old => absurd old new
        · exact all x hx

/-- The entries were written and synced. -/
structure Writable (f : Faults) : Prop where
  mkdir : f.mkdir = false
  openFile : f.openFile = false
  write : f.write = none
  sync : f.sync = false

lemma writeAt_end {base data size} (h : base.length = size) : writeAt base data size = base ++ data := by
  subst h
  simp [writeAt]

lemma length_validData (valid : (parseChain c (file.getD [])).err = none) :
    (validData c file).length = (parseChain c (file.getD [])).validBytes := by
  rw [validData, take_validBytes valid, validBytes_eq valid]

lemma parse_validData (valid : (parseChain c (file.getD [])).err = none) :
    (parseChain c (validData c file)).entries = validEntries c file ∧ (parseChain c (validData c file)).err = none ∧
    (parseChain c (validData c file)).torn = false ∧
    (validData c file).take (parseChain c (validData c file)).validBytes = validData c file := by
  obtain ⟨entries, valid, torn⟩ := parseChain_take valid
  exact ⟨entries, valid, torn, take_validBytes_whole valid torn⟩

namespace Prepared
variable (h : Prepared cfg c f entries file fresh)
include h

lemma valid : (parseChain c (file.getD [])).err = none := (checked_err.mp h.sound).1

lemma parse_grown : (parseChain c (validData c file ++ encode c fresh)).entries = validEntries c file ++ fresh ∧
    (parseChain c (validData c file ++ encode c fresh)).err = none ∧
    (parseChain c (validData c file ++ encode c fresh)).torn = false := parseChain_append h.valid h.chain

lemma sound_grown : (checked cfg (parseChain c (validData c file ++ encode c fresh))).err = none := by
  obtain ⟨entries, valid, -⟩ := h.parse_grown
  refine checked_err.mpr ⟨valid, fun k key e mem coded => ?_⟩
  rw [entries, List.mem_append] at mem
  rcases mem with old | new
  · exact (checked_err.mp h.sound).2 k key e old coded
  · exact h.authentic k key e new

lemma appendLocal_eq {t} (data : t.getD [] = validData c file) (nonempty : fresh ≠ []) :
    (Writable f ∧ f.close = false ∧ f.readBack = false ∧
      appendLocal cfg c f fresh (parseChain c (file.getD [])).validBytes t = (some (validData c file ++ encode c fresh), true)) ∨
    (Writable f ∧ f.close = true ∧
      appendLocal cfg c f fresh (parseChain c (file.getD [])).validBytes t = (some (validData c file ++ encode c fresh), false)) ∨
    ((Writable f → f.close = false ∧ f.readBack = true) ∧
      ∃ t', appendLocal cfg c f fresh (parseChain c (file.getD [])).validBytes t = (t', false) ∧ t'.getD [] = validData c file) := by
  have size := length_validData h.valid
  have put : ∀ data, writeAt (validData c file) data (parseChain c (file.getD [])).validBytes = validData c file ++ data :=
    fun data => writeAt_end size
  have back : ∀ data : Bytes, (validData c file ++ data).take (parseChain c (file.getD [])).validBytes = validData c file := by
    intro data
    rw [← size, List.take_append_of_le_length (Nat.le_refl _), List.take_length]
  unfold appendLocal
  simp only [data, put, back]
  by_cases closed : (f.mkdir || f.openFile) = true
  · rw [if_pos closed]
    refine .inr (.inr ⟨fun w => ?_, t, rfl, data⟩)
    simp [w.mkdir, w.openFile] at closed
  rw [if_neg closed]
  obtain ⟨mkdir, openFile⟩ : f.mkdir = false ∧ f.openFile = false := by simpa using closed
  cases write : f.write with
  | some k => exact .inr (.inr ⟨fun w => by simp [w.write] at write, _, rfl, rfl⟩)
  | none =>
    cases sync : f.sync with
    | true => exact .inr (.inr ⟨fun w => by simp [w.sync] at sync, _, rfl, rfl⟩)
    | false =>
      have w : Writable f := ⟨mkdir, openFile, write, sync⟩
      cases f.close with
      | true => exact .inr (.inl ⟨w, rfl, rfl⟩)
      | false =>
        cases f.readBack with
        | true => exact .inr (.inr ⟨fun _ => ⟨rfl, rfl⟩, _, rfl, rfl⟩)
        | false =>
          refine .inl ⟨w, rfl, rfl, ?_⟩
          obtain ⟨entries, valid, torn⟩ := h.parse_grown
          have written : readLocal cfg c (some (validData c file ++ encode c fresh)) =
              some (checked cfg (parseChain c (validData c file ++ encode c fresh))) := by
            obtain ⟨e, es, rfl⟩ := List.exists_cons_of_ne_nil nonempty
            unfold readLocal
            split
            · simp_all
            next empty => simp [encode] at empty
            next same =>
              cases same
              rfl
          have last : (validEntries c file ++ fresh).getLast? = fresh.getLast? := by
            rw [List.getLast?_append_of_ne_nil _ nonempty]
          simp [written, h.sound_grown, torn, entries, headSeq, headHash, last]

end Prepared

lemma commit_unprepared (given : entries ≠ []) (unprepared : ∀ fresh, ¬ Prepared cfg c f entries file fresh) :
    (∃ err, (commit cfg c f now entries ⟨file, st⟩).1 = .error err) ∧ (commit cfg c f now entries ⟨file, st⟩).2.storage = st ∧
      validEntries c (commit cfg c f now entries ⟨file, st⟩).2.file = validEntries c file ∧
      ((parseChain c (file.getD [])).torn = false → (commit cfg c f now entries ⟨file, st⟩).2.file = file) := by
  cases read : f.readLocal with
  | true => simp [commit, read, given]
  | false =>
    by_cases sound : (checked cfg (parseChain c (file.getD []))).err = none
    · obtain ⟨t, cut, data, -, whole⟩ := @commit_over cfg c f now file st entries given read sound
      have valid := (checked_err.mp sound).1
      have same : validEntries c t = validEntries c file := by
        unfold validEntries
        rw [data]
        exact (parseChain_take valid).1
      rw [cut]
      unfold commitOver
      cases selected : selectFresh (validEntries c file) entries with
      | error err => exact ⟨⟨err, rfl⟩, rfl, same, whole⟩
      | ok fresh =>
        by_cases forged : (cfg.key.any fun k => fresh.any fun e => !k.entryOK e) = true
        · dsimp only
          rw [if_pos forged]
          exact ⟨⟨_, rfl⟩, rfl, same, whole⟩
        have authentic : ∀ k ∈ cfg.key, ∀ e ∈ fresh, k.entryOK e = true := by
          intro k key e mem
          by_contra wrong
          refine forged ?_
          rw [Option.mem_def.mp key]
          exact List.any_eq_true.mpr ⟨e, mem, by simpa using wrong⟩
        simp only [forged, Bool.false_eq_true, if_false]
        have broken : ¬ Chain c (validEntries c file ++ fresh) :=
          fun chain => unprepared fresh ⟨given, read, sound, selected, authentic, chain⟩
        have nonempty : fresh ≠ [] := by
          rintro rfl
          exact broken (by simpa using chain_validEntries c file)
        rw [← extends_iff (chain_validEntries c file) nonempty, not_and_or] at broken
        simp only [List.isEmpty_eq_false_iff.mpr nonempty, Bool.false_eq_true, if_false]
        by_cases other : (!(validEntries c file).isEmpty && decide (ledgerID fresh ≠ ledgerID (validEntries c file))) = true
        · rw [if_pos other]
          exact ⟨⟨_, rfl⟩, rfl, same, whole⟩
        · rw [if_neg other, if_pos (by simpa using broken.resolve_left (by simpa using other))]
          exact ⟨⟨_, rfl⟩, rfl, same, whole⟩
    · have damaged : readLocal cfg c file = some (checked cfg (parseChain c (file.getD []))) := by
        have empty : ¬ file.getD [] = [] := by
          intro empty
          rw [empty] at sound
          exact sound (checked_err.mpr ⟨parseChain_nil.2.1, by simp [parseChain_nil.1]⟩)
        match file with
        | none | some [] => exact absurd rfl empty
        | some (ch :: rest) => rfl
      have some' : (checked cfg (parseChain c (file.getD []))).err.isSome = true := by
        simpa [Option.isSome_iff_ne_none] using sound
      have started : entries.isEmpty = false := by simpa using given
      simp [commit, started, read, damaged, some']

namespace Prepared
variable (h : Prepared cfg c f entries file fresh)
include h

lemma valid_held {t} (data : t.getD [] = validData c file) : validEntries c t = validEntries c file := by
  unfold validEntries
  rw [data]
  exact (parseChain_take h.valid).1

lemma unforged : ¬ (cfg.key.any fun k => fresh.any fun e => !k.entryOK e) = true := by
  intro forged
  obtain ⟨k, key, wrong⟩ := (Option.any_eq_true _ _).mp forged
  obtain ⟨e, mem, bad⟩ := List.any_eq_true.mp wrong
  simp [h.authentic k key e mem] at bad

lemma commit_held (empty : fresh = []) :
    ∃ t, t.getD [] = validData c file ∧ (t = none → file = none) ∧ ((parseChain c (file.getD [])).torn = false → t = file) ∧
      commit cfg c f now entries ⟨file, st⟩ =
        ((pushExternal cfg c false f now t st).result.mapError .external, ⟨t, (pushExternal cfg c false f now t st).storage⟩) := by
  obtain ⟨t, cut, data, absent, whole⟩ := @commit_over cfg c f now file st entries h.given h.read h.sound
  refine ⟨t, data, absent, whole, ?_⟩
  rw [cut, commitOver, h.selected]
  dsimp only
  rw [if_neg h.unforged, empty]
  rfl

lemma commit_fresh (nonempty : fresh ≠ []) :
    ∃ t, t.getD [] = validData c file ∧ commit cfg c f now entries ⟨file, st⟩ =
      match appendLocal cfg c f fresh (parseChain c (file.getD [])).validBytes t with
      | (file', false) => (.error .localWrite, ⟨file', st⟩)
      | (file', true) =>
        match (pushExternal cfg c false f now file' st).result with
        | .ok () => (.ok (), ⟨file', (pushExternal cfg c false f now file' st).storage⟩)
        | .error err => (.error (.external err),
          ⟨file'.map (·.take (parseChain c (file.getD [])).validBytes), (pushExternal cfg c false f now file' st).storage⟩) := by
  obtain ⟨t, cut, data, -⟩ := @commit_over cfg c f now file st entries h.given h.read h.sound
  obtain ⟨ledger, extends'⟩ := (extends_iff (chain_validEntries c file) nonempty).mpr h.chain
  refine ⟨t, data, ?_⟩
  rw [cut, commitOver, h.selected]
  simp only [h.unforged, Bool.false_eq_true, if_false, List.isEmpty_eq_false_iff.mpr nonempty]
  rw [if_neg (by simpa using ledger), if_neg (by simpa using extends')]
  cases appendLocal cfg c f fresh (parseChain c (file.getD [])).validBytes t with
  | mk file' appended => cases appended <;> rfl

lemma unique {fresh'} (h' : Prepared cfg c f entries file fresh') : fresh' = fresh := by
  have same := h'.selected.symm.trans h.selected
  exact Except.ok.inj same

lemma grown_ne_nil : validEntries c file ++ fresh ≠ [] := by
  intro empty
  obtain ⟨held, none⟩ := List.append_eq_nil_iff.mp empty
  obtain ⟨filtered, -⟩ := selectFresh_ok h.selected
  obtain ⟨e, es, rfl⟩ := List.exists_cons_of_ne_nil h.given
  rw [none, held] at filtered
  have kept : ¬ (1 ≤ e.seq ∧ e.seq ≤ headSeq []) := by
    rw [show headSeq [] = 0 from rfl]
    omega
  rw [List.filter_cons, decide_eq_false kept] at filtered
  cases filtered

end Prepared

def Ready (f : Faults) (fresh : List Entry) : Prop := fresh ≠ [] → Writable f ∧ f.close = false ∧ f.readBack = false

/-- The data is an intact ledger of the entries. -/
def Holding (c : Codec) (data : Option Bytes) (es : List Entry) : Prop :=
  ∃ b, data = some b ∧ (parseChain c b).err = none ∧ (parseChain c b).torn = false ∧ (parseChain c b).entries = es

/-- The note names the head of the entries. -/
def Storage.Notes (st : Storage) (es : List Entry) : Prop :=
  ∃ h, st.note = some (.note h) ∧ h.ledger = ledgerID es ∧ h.seq = headSeq es ∧ h.hash = headHash es

def Storage.secondary (cfg : Config) (st : Storage) : Option Bytes :=
  match st.note with
  | some (.note h) => (st.get h.object).bind fun b => if h.encrypted then cfg.cipher.bind (·.unlock b) else some b
  | _ => none

lemma outgoing_info (cfg : Config) (c : Codec) (now : Int) (plain : Bytes) (es : List Entry) :
    (outgoing cfg c now plain es).info.ledger = ledgerID es ∧ (outgoing cfg c now plain es).info.seq = headSeq es ∧
      (outgoing cfg c now plain es).info.hash = headHash es := by
  cases cfg.cipher <;> exact ⟨rfl, rfl, rfl⟩

lemma secondary_outgoing {plain} (note : st.note = some (.note (outgoing cfg c now plain es).info))
    (object : st.get (outgoing cfg c now plain es).name = some (outgoing cfg c now plain es).object) :
    st.secondary cfg = some plain := by
  unfold Storage.secondary
  rw [note]
  revert object
  unfold outgoing
  cases encrypted : cfg.cipher with
  | none =>
    intro object
    simp [object]
  | some cipher =>
    intro object
    simp only at object
    simp [object, cipher.unlock_lock]

inductive CommitCase (cfg : Config) (c : Codec) (f : Faults) (entries : List Entry) (file : Option Bytes) (st : Storage)
    (r : Except CommitError Unit × Copies) : Prop where
  | nothing (none : entries = []) (ok : r.1 = .ok ())
  | stored (fresh : List Entry) (prepared : Prepared cfg c f entries file fresh) (ready : Ready f fresh)
      (reaches : Reaches cfg f st (validEntries c file ++ fresh)) (confirms : Confirms f) (ok : r.1 = .ok ())
      (first : Holding c r.2.file (validEntries c file ++ fresh))
      (second : Holding c (r.2.storage.secondary cfg) (validEntries c file ++ fresh))
  | unclosed (fresh : List Entry) (prepared : Prepared cfg c f entries file fresh) (nonempty : fresh ≠ []) (writable : Writable f)
      (close : f.close = true) (err : CommitError) (failed : r.1 = .error err)
      (kept : validEntries c r.2.file = validEntries c file ++ fresh)
  | unconfirmed (fresh : List Entry) (prepared : Prepared cfg c f entries file fresh) (ready : Ready f fresh)
      (reaches : Reaches cfg f st (validEntries c file ++ fresh)) (unconfirmed : Unconfirmed f) (err : CommitError)
      (failed : r.1 = .error err) (restored : validEntries c r.2.file = validEntries c file)
      (noted : r.2.storage.Notes (validEntries c file ++ fresh))
  | failed (given : entries ≠ []) (err : CommitError) (failed : r.1 = .error err)
      (restored : validEntries c r.2.file = validEntries c file) (note : r.2.storage.note = st.note)
      (closed : ∀ fresh, Prepared cfg c f entries file fresh → fresh ≠ [] → Writable f → f.close = false)
      (short : ∀ fresh, Prepared cfg c f entries file fresh → Ready f fresh → Reaches cfg f st (validEntries c file ++ fresh) →
        ¬ Confirms f ∧ ¬ Unconfirmed f)

lemma commit_cases : CommitCase cfg c f entries file st (commit cfg c f now entries ⟨file, st⟩) := by
  by_cases given : entries = []
  · exact .nothing given (by simp [commit, given])
  by_cases unprepared : ∀ fresh, ¬ Prepared cfg c f entries file fresh
  · obtain ⟨⟨err, failed⟩, storage, restored, -⟩ := @commit_unprepared cfg c f now file st entries given unprepared
    exact .failed given err failed restored (by rw [storage]) (fun fresh h => absurd h (unprepared fresh))
      fun fresh h => absurd h (unprepared fresh)
  obtain ⟨fresh, h⟩ := by simpa only [not_forall, not_not] using unprepared
  obtain ⟨grownEntries, grownValid, grownTorn⟩ := h.parse_grown
  have grownNe := h.grown_ne_nil
  by_cases empty : fresh = []
  · obtain ⟨t, data, absent, -, eq⟩ := @Prepared.commit_held cfg c f now file st entries fresh h empty
    have ready : Ready f fresh := fun nonempty => absurd empty nonempty
    subst empty
    rw [List.append_nil] at grownEntries grownNe
    have plain : t = some (validData c file) := by
      cases t with
      | none =>
        rw [absent rfl] at grownNe
        exact absurd parseChain_nil.1 grownNe
      | some b => rw [← data]; rfl
    subst plain
    obtain ⟨es, valid, torn, whole⟩ := parse_validData h.valid
    rw [eq]
    have restored : validEntries c (some (validData c file)) = validEntries c file := h.valid_held rfl
    rw [← List.append_nil (validEntries c file)] at es
    cases @push_cases cfg c f now st (validData c file) valid (by rw [es, List.append_nil]; exact grownNe) with
    | stored reaches confirms ok note object =>
      rw [es] at reaches
      refine .stored [] h ready reaches confirms (by simp [ok, Except.mapError]) ⟨_, rfl, valid, torn, es⟩
        ⟨_, secondary_outgoing note object, ?_⟩
      rw [whole]
      exact ⟨valid, torn, es⟩
    | unconfirmed reaches unconfirmed err failed note =>
      rw [es] at reaches
      refine .unconfirmed [] h ready reaches unconfirmed _ (by rw [failed]; rfl) restored ⟨_, note, ?_⟩
      rw [← es]
      exact outgoing_info _ _ _ _ _
    | short short err failed note =>
      refine .failed given _ (by rw [failed]; rfl) restored note (fun fresh' h' nonempty => ?_) fun fresh' h' _ reaches => ?_
      · exact absurd (h.unique h') nonempty
      · rw [h.unique h', ← es] at reaches
        exact short reaches
  · obtain ⟨t, data, eq⟩ := @Prepared.commit_fresh cfg c f now file st entries fresh h empty
    have restored : ∀ t' : Option Bytes, t'.getD [] = validData c file → validEntries c t' = validEntries c file :=
      fun t' data => h.valid_held data
    rw [eq]
    rcases h.appendLocal_eq data empty with ⟨w, close, readBack, appended⟩ | ⟨w, close, appended⟩ | ⟨why, t', appended, back⟩
    · rw [appended]
      have ready : Ready f fresh := fun _ => ⟨w, close, readBack⟩
      have whole := take_validBytes_whole grownValid grownTorn
      have cut : ((some (validData c file ++ encode c fresh)).map (·.take (parseChain c (file.getD [])).validBytes)).getD [] =
          validData c file := by
        rw [Option.map_some, Option.getD_some, ← length_validData h.valid, List.take_append_of_le_length (Nat.le_refl _),
          List.take_length]
      cases @push_cases cfg c f now st _ grownValid (by rw [grownEntries]; exact grownNe) with
      | stored reaches confirms ok note object =>
        rw [grownEntries] at reaches
        simp only [ok]
        refine .stored fresh h ready reaches confirms rfl ⟨_, rfl, grownValid, grownTorn, grownEntries⟩
          ⟨_, secondary_outgoing note object, ?_⟩
        rw [whole]
        exact ⟨grownValid, grownTorn, grownEntries⟩
      | unconfirmed reaches unconfirmed err failed note =>
        rw [grownEntries] at reaches
        simp only [failed]
        refine .unconfirmed fresh h ready reaches unconfirmed _ rfl (restored _ cut) ⟨_, note, ?_⟩
        rw [grownEntries]
        exact outgoing_info _ _ _ _ _
      | short short err failed note =>
        simp only [failed]
        refine .failed given _ rfl (restored _ cut) note (fun fresh' _ _ _ => close) fun fresh' h' _ reaches => ?_
        rw [h.unique h', ← grownEntries] at reaches
        exact short reaches
    · rw [appended]
      exact .unclosed fresh h empty w close _ rfl grownEntries
    · rw [appended]
      refine .failed given _ rfl (restored _ back) rfl (fun fresh' _ _ w => (why w).1) fun fresh' h' ready _ => ?_
      rw [h.unique h'] at ready
      obtain ⟨w, -, readBack⟩ := ready empty
      simp [(why w).2] at readBack

def Fresh (held : List Entry) (e : Entry) : Prop := ¬ ∃ x ∈ held, x.seq = e.seq ∧ x.hash = e.hash

def Storage.Describes (st : Storage) (e : Entry) : Prop :=
  ∃ h, st.note = some (.note h) ∧ h.ledger = e.ledger ∧ h.seq = e.seq ∧ h.hash = e.hash

def EndsIn (c : Codec) (data : Option Bytes) (e : Entry) : Prop :=
  ∃ es, Holding c data es ∧ headSeq es = e.seq ∧ headHash es = e.hash

/-- After success both copies end in the last entry; after failure the local entries are what they were and the note describes none
of the entries that were not held. -/
structure Durable (cfg : Config) (c : Codec) (entries : List Entry) (file : Option Bytes) (r : Except CommitError Unit × Copies) :
    Prop where
  stored : r.1 = .ok () → ∀ last, entries.getLast? = some last → EndsIn c r.2.file last ∧ EndsIn c (r.2.storage.secondary cfg) last
  restored : ∀ err, r.1 = .error err → validEntries c r.2.file = validEntries c file
  unnoted : ∀ err, r.1 = .error err → ∀ e ∈ entries, Fresh (validEntries c file) e → ¬ r.2.storage.Describes e

def Succeeds (cfg : Config) (c : Codec) (f : Faults) (entries : List Entry) (file : Option Bytes) (st : Storage) : Prop :=
  ∃ fresh, Prepared cfg c f entries file fresh ∧ Ready f fresh ∧ Reaches cfg f st (validEntries c file ++ fresh) ∧ Confirms f

/-- When a commit keeps to it. -/
structure Safe (cfg : Config) (c : Codec) (f : Faults) (entries : List Entry) (file : Option Bytes) (st : Storage) : Prop where
  closed : ∀ fresh, Prepared cfg c f entries file fresh → fresh ≠ [] → Writable f → f.close = false
  confirmed : ∀ fresh, Prepared cfg c f entries file fresh → fresh ≠ [] → Ready f fresh →
    Reaches cfg f st (validEntries c file ++ fresh) → ¬ Unconfirmed f
  /-- The last entry is the newest. -/
  newest : Succeeds cfg c f entries file st → ∀ last, entries.getLast? = some last →
    headSeq (validEntries c file) ≤ last.seq ∧ ∀ e ∈ entries, e.seq ≤ last.seq
  /-- The note did not describe the entries before a commit that fails. -/
  unnoted : entries ≠ [] → ¬ Succeeds cfg c f entries file st → ∀ e ∈ entries, Fresh (validEntries c file) e → ¬ st.Describes e

namespace Prepared
variable (h : Prepared cfg c f entries file fresh)
include h

lemma mem_fresh {e} : e ∈ fresh ↔ e ∈ entries ∧ ¬ (1 ≤ e.seq ∧ e.seq ≤ headSeq (validEntries c file)) := by
  rw [(selectFresh_ok h.selected).1, List.mem_filter]
  simp only [Bool.not_eq_true', decide_eq_false_iff_not]

lemma fresh_iff {e} (mem : e ∈ entries) : Fresh (validEntries c file) e ↔ e ∈ fresh := by
  have chain := chain_validEntries c file
  rw [h.mem_fresh, headSeq_validEntries]
  constructor
  · refine fun new => ⟨mem, fun old => new ?_⟩
    have hash := (selectFresh_ok h.selected).2 e mem (by rwa [headSeq_validEntries])
    obtain ⟨x, at', same⟩ := Option.map_eq_some_iff.mp hash
    have seq := chain.seq at'
    exact ⟨x, List.mem_of_getElem? at', by omega, same⟩
  · rintro ⟨-, new⟩ ⟨x, held, seq, -⟩
    obtain ⟨n, lt, rfl⟩ := List.getElem_of_mem held
    have := chain.seq (List.getElem?_eq_getElem lt)
    omega

lemma seq_fresh {e} (mem : e ∈ fresh) : (validEntries c file).length < e.seq ∧ e.seq ≤ headSeq (validEntries c file ++ fresh) := by
  obtain ⟨n, lt, rfl⟩ := List.getElem_of_mem mem
  have at' : (validEntries c file ++ fresh)[(validEntries c file).length + n]? = some fresh[n] := by
    rw [List.getElem?_append_right (by omega)]
    simp [lt]
  have seq := h.chain.seq at'
  rw [h.chain.headSeq, List.length_append]
  push_cast at seq ⊢
  omega

lemma head_iff {last} (hlast : entries.getLast? = some last) :
    (headSeq (validEntries c file ++ fresh) = last.seq ∧ headHash (validEntries c file ++ fresh) = last.hash) ↔
      headSeq (validEntries c file) ≤ last.seq ∧ ∀ e ∈ entries, e.seq ≤ last.seq := by
  have mem : last ∈ entries := List.mem_of_getLast? hlast
  constructor
  · rintro ⟨seq, -⟩
    rw [← seq]
    refine ⟨by rw [headSeq_validEntries, h.chain.headSeq, List.length_append]; push_cast; omega, fun e he => ?_⟩
    by_cases new : e ∈ fresh
    · exact (h.seq_fresh new).2
    have old : 1 ≤ e.seq ∧ e.seq ≤ headSeq (validEntries c file) := by
      by_contra out
      exact new (h.mem_fresh.mpr ⟨he, out⟩)
    rw [headSeq_validEntries] at old
    rw [h.chain.headSeq, List.length_append]
    push_cast
    omega
  · rintro ⟨reaches, newest⟩
    by_cases new : last ∈ fresh
    · -- the last of the entries is then the last of those selected
      have lastFresh : fresh.getLast? = some last := by
        rw [(selectFresh_ok h.selected).1]
        obtain ⟨init, rfl⟩ := List.getLast?_eq_some_iff.mp hlast
        have kept := (h.mem_fresh.mp new).2
        rw [List.filter_append, List.filter_cons, decide_eq_false kept]
        simp
      have head : (validEntries c file ++ fresh).getLast? = some last := by
        rw [List.getLast?_append_of_ne_nil _ (List.ne_nil_of_mem new), lastFresh]
      simp [headSeq, headHash, head]
    have old : 1 ≤ last.seq ∧ last.seq ≤ headSeq (validEntries c file) := by
      by_contra out
      exact new (h.mem_fresh.mpr ⟨mem, out⟩)
    have seq : last.seq = headSeq (validEntries c file) := Int.le_antisymm old.2 reaches
    have none : fresh = [] := by
      refine List.eq_nil_iff_forall_not_mem.mpr fun e he => ?_
      have later := (h.seq_fresh he).1
      have := newest e (h.mem_fresh.mp he).1
      rw [seq, headSeq_validEntries] at this
      omega
    rw [none, List.append_nil]
    refine ⟨seq.symm, ?_⟩
    have hash := (selectFresh_ok h.selected).2 last mem old
    have pos := old.1
    rw [seq, headSeq_validEntries] at hash pos
    unfold hashAt at hash
    rw [show (((validEntries c file).length : Int) - 1).toNat = (validEntries c file).length - 1 by omega,
      ← List.getLast?_eq_getElem?] at hash
    rw [headHash, hash]
    rfl

lemma describes_of_notes {st : Storage} (nonempty : fresh ≠ []) (noted : st.Notes (validEntries c file ++ fresh)) :
    ∃ e ∈ entries, Fresh (validEntries c file) e ∧ st.Describes e := by
  obtain ⟨e, hlast⟩ : ∃ e, fresh.getLast? = some e := Option.isSome_iff_exists.mp (by simp [nonempty])
  have mem : e ∈ fresh := List.mem_of_getLast? hlast
  have given := (h.mem_fresh.mp mem).1
  refine ⟨e, given, (h.fresh_iff given).mpr mem, ?_⟩
  obtain ⟨head, note, ledger, seq, hash⟩ := noted
  have last : (validEntries c file ++ fresh).getLast? = some e := by
    rw [List.getLast?_append_of_ne_nil _ nonempty, hlast]
  refine ⟨head, note, ?_, ?_, ?_⟩
  · rw [ledger, ← Chain.ledgerID h.chain (List.mem_of_getLast? last)]
  · simp [seq, headSeq, last]
  · simp [hash, headHash, last]

end Prepared

lemma Holding.unique {data es'} (h : Holding c data es) (h' : Holding c data es') : es = es' := by
  obtain ⟨b, eq, -, -, entries⟩ := h
  obtain ⟨b', eq', -, -, entries'⟩ := h'
  obtain rfl : b = b' := Option.some.inj (eq.symm.trans eq')
  exact entries.symm.trans entries'

lemma Holding.endsIn_iff {data} (h : Holding c data es) : EndsIn c data e ↔ headSeq es = e.seq ∧ headHash es = e.hash := by
  constructor
  · rintro ⟨es', holding, ends⟩
    rwa [h.unique holding]
  · exact fun ends => ⟨es, h, ends⟩

lemma confirms_not_unconfirmed (h : Confirms f) : ¬ Unconfirmed f := by
  rintro (late | ⟨-, lost⟩)
  · simp [h.1] at late
  · simp [h.2] at lost

lemma durable_iff : Durable cfg c entries file (commit cfg c f now entries ⟨file, st⟩) ↔ Safe cfg c f entries file st := by
  have outcome := @commit_cases cfg c f now file st entries
  generalize commit cfg c f now entries ⟨file, st⟩ = r at outcome ⊢
  cases outcome with
  | nothing none ok =>
    subst none
    refine iff_of_true ⟨fun _ _ hlast => by simp at hlast, fun err failed => by simp [ok] at failed, fun _ _ e he => by simp at he⟩
      ⟨fun _ h => absurd rfl h.given, fun _ h => absurd rfl h.given, ?_, fun h => absurd rfl h⟩
    rintro ⟨_, h, -⟩
    exact absurd rfl h.given
  | stored fresh h ready reaches confirms ok first second =>
    have succeeds : Succeeds cfg c f entries file st := ⟨fresh, h, ready, reaches, confirms⟩
    refine ⟨fun durable => ⟨fun fresh' h' nonempty _ => ?_, fun _ _ _ _ _ => confirms_not_unconfirmed confirms,
      fun _ last hlast => ?_, fun _ fails => absurd succeeds fails⟩,
      fun safe => ⟨fun _ last hlast => ?_, fun err failed => by simp [ok] at failed, fun err failed => by simp [ok] at failed⟩⟩
    · exact (ready (h.unique h' ▸ nonempty)).2.1
    · exact (h.head_iff hlast).mp (first.endsIn_iff.mp (durable.stored ok last hlast).1)
    · have head := (h.head_iff hlast).mpr (safe.newest succeeds last hlast)
      exact ⟨first.endsIn_iff.mpr head, second.endsIn_iff.mpr head⟩
  | unclosed fresh h nonempty writable close err failed kept =>
    refine iff_of_false (fun durable => ?_) fun safe => by simp [safe.closed fresh h nonempty writable] at close
    have restored := durable.restored err failed
    rw [kept] at restored
    exact nonempty (List.append_right_eq_self.mp restored)
  | unconfirmed fresh h ready reaches unconfirmed err failed restored noted =>
    by_cases empty : fresh = []
    · -- nothing was to be added, so nothing the note can name is missing from the local copy
      subst empty
      have none : ∀ e ∈ entries, ¬ Fresh (validEntries c file) e := fun e he new => by simpa using (h.fresh_iff he).mp new
      have fails : ¬ Succeeds cfg c f entries file st := fun ⟨_, _, _, _, confirms⟩ => confirms_not_unconfirmed confirms unconfirmed
      exact iff_of_true ⟨fun ok => by simp [failed] at ok, fun _ _ => restored, fun _ _ e he new => absurd new (none e he)⟩
        ⟨fun _ h' nonempty => absurd (h.unique h') nonempty, fun _ h' nonempty => absurd (h.unique h') nonempty,
          fun succeeds => absurd succeeds fails, fun _ _ e he new => absurd new (none e he)⟩
    · refine iff_of_false (fun durable => ?_) fun safe => safe.confirmed fresh h empty ready reaches unconfirmed
      obtain ⟨e, given, new, described⟩ := h.describes_of_notes empty noted
      exact durable.unnoted err failed e given new described
  | failed given err failed restored note closed short =>
    have fails : ¬ Succeeds cfg c f entries file st := fun ⟨fresh, h, ready, reaches, confirms⟩ => (short fresh h ready reaches).1 confirms
    have same : ∀ e, r.2.storage.Describes e ↔ st.Describes e := fun e => by simp only [Storage.Describes, note]
    refine ⟨fun durable => ⟨closed, fun fresh h _ ready reaches => (short fresh h ready reaches).2, fun succeeds => absurd succeeds fails,
      fun _ _ e he new => ?_⟩, fun safe => ⟨fun ok => by simp [failed] at ok, fun _ _ => restored, fun _ _ e he new => ?_⟩⟩
    · rw [← same]
      exact durable.unnoted err failed e he new
    · rw [same]
      exact safe.unnoted given fails e he new

lemma Storage.Notes.silent {next} (noted : st.Notes es) (chain : Chain c (es ++ next)) (held : es ≠ [])
    (nonempty : next ≠ []) : ¬ NoteObjects cfg f st (es ++ next) := by
  rintro ⟨head', read, objects⟩
  obtain ⟨head, note, ledger, seq, -⟩ := noted
  have same : head' = head := by
    unfold readExternalHead at read
    rw [note] at read
    simp only at read
    repeat' split at read
    all_goals cases read
    rfl
  subst same
  have ledger' : ledgerID (es ++ next) = ledgerID es := by
    obtain ⟨x, xs, rfl⟩ := List.exists_cons_of_ne_nil held
    rfl
  have longer := List.length_pos_iff.mpr nonempty
  rw [ledger, seq, ledger', Chain.headSeq (continues_append.mp chain).1, chain.headSeq, List.length_append] at objects
  push_cast at objects
  rcases objects with ⟨-, further | ⟨as, -⟩⟩ | ⟨other, -⟩
  · omega
  · omega
  · exact other rfl

/-- A commit is durable in both places or in neither exactly when, having come that far, it could close the file and was not left in
doubt about the note, the last entry was the newest, and the note did not already describe an entry it failed to add. The note it then
leaves does not stand against other entries after those held, unless it stood there before. -/
theorem commit_durable_iff (cfg : Config) (c : Codec) (f : Faults) (now : Int) (entries : List Entry) (file : Option Bytes)
    (st : Storage) :
    (Durable cfg c entries file (commit cfg c f now entries ⟨file, st⟩) ↔ Safe cfg c f entries file st) ∧
    (Safe cfg c f entries file st → ∀ err, (commit cfg c f now entries ⟨file, st⟩).1 = .error err →
      ∀ f' next, next ≠ [] → Chain c (validEntries c file ++ next) →
        NoteObjects cfg f' (commit cfg c f now entries ⟨file, st⟩).2.storage (validEntries c file ++ next) →
        (commit cfg c f now entries ⟨file, st⟩).2.storage.note = st.note) := by
  refine ⟨durable_iff, fun safe err error f' next nonempty chain objects => ?_⟩
  have outcome := @commit_cases cfg c f now file st entries
  cases outcome with
  | nothing none ok | stored fresh h ready reaches confirms ok first second => rw [ok] at error; cases error
  | unclosed fresh h nonempty writable close => simp [safe.closed fresh h nonempty writable] at close
  | unconfirmed fresh h ready reaches unconfirmed err failed restored noted =>
    have empty : fresh = [] := by
      by_contra nonempty
      exact safe.confirmed fresh h nonempty ready reaches unconfirmed
    have held := h.grown_ne_nil
    rw [empty, List.append_nil] at noted held
    exact absurd objects (noted.silent chain held nonempty)
  | failed given err failed restored note => exact note

def emptyStorage : Storage := ⟨none, none, none⟩

lemma prepared_first {file : Option Bytes} (empty : file.getD [] = []) (read : f.readLocal = false) (chain : Chain c [e]) :
    Prepared plainConfig c f [e] file [e] := by
  have held : validEntries c file = [] := by
    unfold validEntries
    rw [empty]
    exact parseChain_nil.1
  refine ⟨by simp, read, ?_, ?_, by simp [plainConfig], by rwa [held]⟩
  · rw [empty]
    exact checked_err.mpr ⟨parseChain_nil.2.1, by simp [plainConfig]⟩
  · have new : ¬ (1 ≤ e.seq ∧ e.seq ≤ 0) := by omega
    simp [held, selectFresh, headSeq, new, Except.map]

lemma silent_emptyStorage : ¬ NoteObjects cfg f emptyStorage es := by
  rintro ⟨h, read, -⟩
  simp only [readExternalHead, emptyStorage] at read
  split at read <;> cases read

lemma safe_first (chain : Chain c [e]) : Safe plainConfig c .none [e] none emptyStorage := by
  have succeeds : Succeeds plainConfig c .none [e] none emptyStorage :=
    ⟨[e], prepared_first rfl rfl chain, fun _ => ⟨⟨rfl, rfl, rfl, rfl⟩, rfl, rfl⟩, ⟨rfl, silent_emptyStorage, rfl, rfl, rfl⟩, rfl, rfl⟩
  refine ⟨fun _ _ _ _ => rfl, fun _ _ _ _ _ => confirms_not_unconfirmed ⟨rfl, rfl⟩, fun _ last hlast => ?_,
    fun _ fails => absurd succeeds fails⟩
  obtain rfl : e = last := by simpa using hlast
  have held : validEntries c none = [] := parseChain_nil.1
  have seq : e.seq = 1 := chain.seq (n := 0) rfl
  rw [headSeq_validEntries, held, seq]
  exact ⟨by simp, by simp [seq]⟩

/-- The first entry, committed with everything working. -/
theorem first_commit_is_durable :
    Durable plainConfig plainCodec [firstEntry] none (commit plainConfig plainCodec .none 0 [firstEntry] ⟨none, emptyStorage⟩) :=
  (commit_durable_iff plainConfig plainCodec .none 0 [firstEntry] none emptyStorage).1.mpr (safe_first firstEntry_chain)

def cannotClose : Faults := { Faults.none with close := true }

def noteLost : Faults := { Faults.none with putNote := .failedAfter }

lemma not_safe_cannotClose (chain : Chain c [e]) : ¬ Safe plainConfig c cannotClose [e] none emptyStorage := by
  intro safe
  cases safe.closed [e] (prepared_first rfl rfl chain) (by simp) ⟨rfl, rfl, rfl, rfl⟩

lemma not_safe_noteLost (chain : Chain c [e]) : ¬ Safe plainConfig c noteLost [e] none emptyStorage := by
  intro safe
  exact safe.confirmed [e] (prepared_first rfl rfl chain) (by simp) (fun _ => ⟨⟨rfl, rfl, rfl, rfl⟩, rfl, rfl⟩)
    ⟨rfl, silent_emptyStorage, rfl, rfl, rfl⟩ (.inl rfl)

lemma commit_noteLost (chain : Chain c [e]) :
    ∃ err st, commit plainConfig c noteLost now [e] ⟨none, emptyStorage⟩ = (.error err, ⟨some [], st⟩) ∧ st.Notes [e] := by
  have h : Prepared plainConfig c noteLost [e] none [e] := prepared_first rfl rfl chain
  have held : validEntries c none = [] := parseChain_nil.1
  obtain ⟨entries, valid, -⟩ := h.parse_grown
  obtain ⟨t, data, eq⟩ := @Prepared.commit_fresh plainConfig c noteLost now none emptyStorage [e] [e] h (by simp)
  rcases h.appendLocal_eq data (by simp) with ⟨-, -, -, appended⟩ | ⟨-, close, -⟩ | ⟨why, -⟩
  · rw [appended] at eq
    cases @push_cases plainConfig c noteLost now emptyStorage _ valid (by rw [entries]; exact h.grown_ne_nil) with
    | stored reaches confirms => cases confirms.1
    | unconfirmed reaches unconfirmed err failed note =>
      simp only [failed, Option.map_some, Option.getD_none, parseChain_nil.2.2, List.take_zero] at eq
      refine ⟨_, _, eq, _, note, ?_⟩
      rw [entries, held, List.nil_append]
      exact outgoing_info _ _ _ _ _
    | short short =>
      exact absurd (.inl rfl) (short ⟨rfl, silent_emptyStorage, rfl, rfl, rfl⟩).2
  · cases close
  · cases (why ⟨rfl, rfl, rfl, rfl⟩).2

lemma commit_forked {x} (noted : st.Notes [e]) (chain : Chain c [e]) (chainx : Chain c [x]) (ledger : e.ledger = x.ledger)
    (hash : e.hash ≠ x.hash) : (commit plainConfig c .none now [x] ⟨some [], st⟩).1 = .error (.external .externalFork) := by
  have h : Prepared plainConfig c .none [x] (some []) [x] := prepared_first rfl rfl chainx
  have held : validEntries c (some []) = [] := parseChain_nil.1
  obtain ⟨entries, valid, -⟩ := h.parse_grown
  rw [held, List.nil_append] at entries
  obtain ⟨t, data, eq⟩ := @Prepared.commit_fresh plainConfig c .none now (some []) st [x] [x] h (by simp)
  have refused : (pushExternal plainConfig c false .none now (some (validData c (some []) ++ encode c [x])) st).result =
      .error .externalFork := by
    obtain ⟨head, note, ledger', seq, hash'⟩ := noted
    have read : readExternalHead plainConfig .none st = .ok (some head) := by simp [readExternalHead, Faults.none, note, plainConfig]
    have objection : overwriteError (readExternalHead plainConfig .none st) [x] = some .externalFork := by
      have numbers : headSeq [e] = headSeq [x] := by rw [chain.headSeq, chainx.headSeq]; rfl
      have same : ledgerID [e] = ledgerID [x] := ledger
      have heads : headHash [e] ≠ headHash [x] := hash
      simp [read, overwriteError, ledger', seq, hash', numbers, same, heads]
    unfold pushExternal
    simp [show Faults.none.readPush = false from rfl, valid, entries, objection]
  rcases h.appendLocal_eq data (by simp) with ⟨-, -, -, appended⟩ | ⟨-, close, -⟩ | ⟨why, -⟩
  · rw [eq, appended]
    simp [refused]
  · cases close
  · cases (why ⟨rfl, rfl, rfl, rfl⟩).2

/-- A file that cannot be closed keeps the entry of the failed commit; a note whose answer was lost describes it, and another entry of
its number is then refused as forked. -/
theorem failed_commit_leaves_entry :
    ¬ Durable plainConfig plainCodec [firstEntry] none (commit plainConfig plainCodec cannotClose 0 [firstEntry] ⟨none, emptyStorage⟩) ∧
    ¬ Durable plainConfig plainCodec [firstEntry] none (commit plainConfig plainCodec noteLost 0 [firstEntry] ⟨none, emptyStorage⟩) ∧
    (commit plainConfig plainCodec .none 0 [otherEntry]
      (commit plainConfig plainCodec noteLost 0 [firstEntry] ⟨none, emptyStorage⟩).2).1 = .error (.external .externalFork) := by
  refine ⟨fun durable => not_safe_cannotClose firstEntry_chain (durable_iff.mp durable),
    fun durable => not_safe_noteLost firstEntry_chain (durable_iff.mp durable), ?_⟩
  obtain ⟨err, st, eq, noted⟩ := @commit_noteLost plainCodec 0 firstEntry firstEntry_chain
  rw [eq]
  refine commit_forked noted firstEntry_chain otherEntry_chain rfl fun same => ?_
  have cores := core_of_hash (c := plainCodec) firstEntry_clean otherEntry_clean rfl rfl same
  simp [firstEntry, otherEntry, nextEntry, Entry.core] at cores

end StayConnect.Erasure
