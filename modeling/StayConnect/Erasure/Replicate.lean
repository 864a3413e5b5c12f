import StayConnect.Erasure.Store

/-!
# What a push overwrites

A push that is not forced decides from the note whether it may overwrite the secondary copy. A note that cannot be read says nothing,
and a note of a shorter chain is not compared with the local one, so what is overwritten need not be a prefix (`push_overwrites_iff`).
-/

namespace StayConnect.Erasure
open Framing (Bytes)

variable {c : Codec}

def Storage.Holds (opens : Bytes → Option Bytes) (c : Codec) (st : Storage) (es : List Entry) : Prop :=
  (∃ b, st.plain = some b ∧ (parseChain c b).entries = es) ∨
    ∃ b plain, st.sealed = some b ∧ opens b = some plain ∧ (parseChain c plain).entries = es

def Storage.Behind (opens : Bytes → Option Bytes) (c : Codec) (st : Storage) (es : List Entry) : Prop :=
  ∀ held, st.Holds opens c held → held.map Entry.core <+: es.map Entry.core

def localEntries (c : Codec) (f : Faults) (file : Option Bytes) : List Entry :=
  match if f.readPush then none else file with
  | none => []
  | some plain => (parseChain c plain).entries

/-- What a push is to do: overwrite only a prefix of the local chain, or else fail and leave object and note untouched. -/
def Replicates (opens : Bytes → Option Bytes) (c : Codec) (f : Faults) (file : Option Bytes) (st : Storage) (r : Pushed) : Prop :=
  st.Behind opens c (localEntries c f file) ∨ ((∃ err, r.result = .error err) ∧ r.wrote = false ∧ r.storage = st)

/-- The note was read, is authentic, and shows a chain that is further, another one of the same length, or another ledger. -/
def NoteObjects (cfg : Config) (f : Faults) (st : Storage) (es : List Entry) : Prop :=
  ∃ h, readExternalHead cfg f st = .ok (some h) ∧
    ((h.ledger = ledgerID es ∧ (headSeq es < h.seq ∨ h.seq = headSeq es ∧ h.hash ≠ headHash es)) ∨ (h.ledger ≠ ledgerID es ∧ 0 < h.seq))

/-- The push ends before it writes anything. -/
def StopsEarly (cfg : Config) (c : Codec) (f : Faults) (file : Option Bytes) (st : Storage) : Prop :=
  f.readPush = true ∨ (∀ plain, file = some plain → (parseChain c plain).err.isSome ∨ (parseChain c plain).entries = []) ∨
    NoteObjects cfg f st (localEntries c f file) ∨ f.encrypt = true ∨ f.putObject = .failedBefore

variable {cfg : Config} {f : Faults} {st : Storage} {es : List Entry} {now : Int} {file : Option Bytes}

lemma overwriteError_isSome : (overwriteError (readExternalHead cfg f st) es).isSome ↔ NoteObjects cfg f st es := by
  unfold NoteObjects
  cases read : readExternalHead cfg f st with
  | error err => simp [overwriteError]
  | ok head =>
    cases head with
    | none => simp [overwriteError]
    | some h =>
      simp only [overwriteError, Except.ok.injEq, Option.some.injEq, exists_eq_left']
      by_cases ledger : h.ledger = ledgerID es
      · by_cases ahead : headSeq es < h.seq
        · simp [ledger, ahead]
        · by_cases fork : h.seq = headSeq es ∧ h.hash ≠ headHash es
          · simp [ledger, fork]
          · simp [ledger, ahead, fork]
      · by_cases positive : 0 < h.seq <;> simp [ledger, positive]

lemma writeOutgoing_wrote {o} (h : f.putObject ≠ .failedBefore) : (writeOutgoing f o st).wrote = true := by
  unfold writeOutgoing
  split
  next before => exact absurd before h
  · rfl
  · simp only
    repeat' split
    all_goals rfl

lemma push_wrote_iff : (pushExternal cfg c false f now file st).wrote = false ↔ StopsEarly cfg c f file st := by
  unfold pushExternal StopsEarly localEntries
  by_cases unread : f.readPush = true
  · simp [unread]
  simp only [unread, Bool.false_eq_true, if_false, false_or]
  cases file with
  | none => simp
  | some plain =>
    simp only [Option.some.injEq, forall_eq']
    by_cases invalid : (parseChain c plain).err.isSome ∨ (parseChain c plain).entries = []
    · simp [invalid]
    obtain ⟨noErr, nonempty⟩ := not_or.mp invalid
    have valid : ((parseChain c plain).err.isSome || (parseChain c plain).entries.isEmpty) = false := by simp [noErr, nonempty]
    simp only [valid, Bool.false_eq_true, if_false, invalid, false_or, ← overwriteError_isSome]
    cases overwriteError (readExternalHead cfg f st) (parseChain c plain).entries with
    | some err => simp
    | none =>
      by_cases encrypt : f.encrypt = true
      · simp [encrypt]
      · by_cases before : f.putObject = .failedBefore
        · simp [encrypt, before, writeOutgoing]
        · simp [encrypt, before, writeOutgoing_wrote before]

lemma push_untouched (h : (pushExternal cfg c false f now file st).wrote = false) :
    (∃ err, (pushExternal cfg c false f now file st).result = .error err) ∧ (pushExternal cfg c false f now file st).storage = st := by
  unfold pushExternal at h ⊢
  split
  · exact ⟨⟨_, rfl⟩, rfl⟩
  simp only at h ⊢
  split
  · exact ⟨⟨_, rfl⟩, rfl⟩
  next read valid =>
    simp only [read, valid] at h
    split
    · exact ⟨⟨_, rfl⟩, rfl⟩
    rename_i allowed
    simp only [allowed] at h
    split
    · exact ⟨⟨_, rfl⟩, rfl⟩
    rename_i encrypted
    by_cases before : f.putObject = .failedBefore
    · simp [writeOutgoing, before]
    · simp [encrypted, writeOutgoing_wrote before] at h

lemma cores_prefix_of_head {held} (chain : Chain c es) (chainHeld : Chain c held) (clean : ∀ e ∈ es, e.Clean)
    (cleanHeld : ∀ e ∈ held, e.Clean) (nonempty : held ≠ []) (same : hashAt es (headSeq held) = some (headHash held)) :
    held.map Entry.core <+: es.map Entry.core := by
  obtain ⟨last, hlast⟩ : ∃ last, held.getLast? = some last := Option.isSome_iff_exists.mp (by simp [nonempty])
  have pos : 0 < held.length := List.length_pos_iff.mpr nonempty
  rw [chainHeld.headSeq, hashAt, show ((held.length : Int) - 1).toNat = held.length - 1 by omega, Option.map_eq_some_iff] at same
  obtain ⟨e, at', hash⟩ := same
  refine HashChain.prefix_of_last (Continues.linked chainHeld) (Continues.linked chain) (binding chainHeld chain cleanHeld clean) hlast at' ?_
  rw [hash, headHash, hlast]
  rfl

/-- A note that describes what is held, and does not object: what is held is a prefix, or it is shorter and has forked. -/
lemma fork_of_no_objection {held h} (chain : Chain c es)
    (chainHeld : Chain c held) (clean : ∀ e ∈ es, e.Clean) (cleanHeld : ∀ e ∈ held, e.Clean) (nonempty : held ≠ [])
    (read : readExternalHead cfg f st = .ok (some h))
    (describes : h.ledger = ledgerID held ∧ h.seq = headSeq held ∧ h.hash = headHash held) (silent : ¬ NoteObjects cfg f st es) :
    held.map Entry.core <+: es.map Entry.core ∨ (ledgerID held = ledgerID es ∧ held.length < es.length) := by
  have quiet := fun x => silent ⟨h, read, x⟩
  obtain ⟨ledger, seq, hash⟩ := describes
  rw [ledger, seq, hash, chain.headSeq, chainHeld.headSeq] at quiet
  have pos : 0 < held.length := List.length_pos_iff.mpr nonempty
  have same : ledgerID held = ledgerID es := by
    by_contra differs
    exact quiet (.inr ⟨differs, by omega⟩)
  by_cases shorter : held.length < es.length
  · exact .inr ⟨same, shorter⟩
  left
  have length : held.length = es.length := by
    by_contra differs
    exact quiet (.inl ⟨same, .inl (by omega)⟩)
  have heads : headHash held = headHash es := by
    by_contra differs
    exact quiet (.inl ⟨same, .inr ⟨by omega, differs⟩⟩)
  refine cores_prefix_of_head chain chainHeld clean cleanHeld nonempty ?_
  have posE : 0 < es.length := by omega
  obtain ⟨last, hlast⟩ : ∃ last, es.getLast? = some last := Option.isSome_iff_exists.mp (by simp [List.length_pos_iff.mp posE])
  rw [heads, headHash, hlast, chainHeld.headSeq, length, hashAt, show ((es.length : Int) - 1).toNat = es.length - 1 by omega,
    ← List.getLast?_eq_getElem?, hlast]
  rfl

/-- Everything written, and the copy under the other name removed. -/
def Outgoing.kept (o : Outgoing) (st : Storage) : Storage :=
  ({ st.put o.name o.object with note := some (.note o.info) } : Storage).removeOther o.name

lemma push_working {force plain} (valid : (parseChain c plain).err = none)
    (nonempty : (parseChain c plain).entries ≠ []) (allowed : force = false → ¬ NoteObjects cfg .none st (parseChain c plain).entries) :
    pushExternal cfg c force .none now (some plain) st =
      ⟨.ok (), (outgoing cfg c now (plain.take (parseChain c plain).validBytes) (parseChain c plain).entries).kept st, true⟩ := by
  have unopposed : (if force then none else overwriteError (readExternalHead cfg .none st) (parseChain c plain).entries) = none := by
    cases force with
    | true => rfl
    | false => simpa [← overwriteError_isSome] using allowed rfl
  have started : ((parseChain c plain).err.isSome || (parseChain c plain).entries.isEmpty) = false := by simp [valid, nonempty]
  unfold pushExternal
  simp only [started, unopposed, show Faults.none.readPush = false from rfl, show Faults.none.encrypt = false from rfl,
    Bool.false_eq_true, if_false]
  rfl

lemma commit_storage (cfg : Config) (c : Codec) (f : Faults) (now : Int) (entries : List Entry) (s : Copies) :
    ((∃ err, (commit cfg c f now entries s).1 = .error err) ∨ entries = []) ∧ (commit cfg c f now entries s).2.storage = s.storage ∨
    ∃ file, (commit cfg c f now entries s).2.storage = (pushExternal cfg c false f now file s.storage).storage ∧
      ((commit cfg c f now entries s).1 = .ok () ↔ (pushExternal cfg c false f now file s.storage).result = .ok ()) := by
  have beyond : ∀ held size (t : Copies), t.storage = s.storage →
      (∃ err, (commitOver cfg c f now entries held size t).1 = .error err) ∧
        (commitOver cfg c f now entries held size t).2.storage = s.storage ∨
      ∃ file, (commitOver cfg c f now entries held size t).2.storage = (pushExternal cfg c false f now file s.storage).storage ∧
        ((commitOver cfg c f now entries held size t).1 = .ok () ↔ (pushExternal cfg c false f now file s.storage).result = .ok ()) := by
    intro held size t same
    unfold commitOver
    split
    · exact .inl ⟨⟨_, rfl⟩, same⟩
    split
    · exact .inl ⟨⟨_, rfl⟩, same⟩
    split
    · refine .inr ⟨t.file, by rw [same], ?_⟩
      rw [same]
      cases pushed : (pushExternal cfg c false f now t.file s.storage).result <;> simp [Except.mapError, pushed]
    split
    · exact .inl ⟨⟨_, rfl⟩, same⟩
    split
    · exact .inl ⟨⟨_, rfl⟩, same⟩
    simp only
    split
    · exact .inl ⟨⟨_, rfl⟩, same⟩
    rw [same]
    split
    next ok => exact .inr ⟨_, rfl, by simp [ok]⟩
    next failed => exact .inr ⟨_, rfl, by simp [failed]⟩
  unfold commit
  split
  next none => exact .inl ⟨.inr (by simpa using none), rfl⟩
  · split
    · exact .inl ⟨.inl ⟨_, rfl⟩, rfl⟩
    split
    · rcases beyond [] 0 s rfl with ⟨failed, untouched⟩ | pushed
      · exact .inl ⟨.inl failed, untouched⟩
      · exact .inr pushed
    split
    · exact .inl ⟨.inl ⟨_, rfl⟩, rfl⟩
    next cur _ _ =>
      rcases beyond cur.entries cur.validBytes
        { s with file := if cur.torn then s.file.map (·.take cur.validBytes) else s.file } rfl with ⟨failed, untouched⟩ | pushed
      · exact .inl ⟨.inl failed, untouched⟩
      · exact .inr pushed

lemma replicates_iff {opens} :
    Replicates opens c f file st (pushExternal cfg c false f now file st) ↔
      st.Behind opens c (localEntries c f file) ∨ StopsEarly cfg c f file st := by
  unfold Replicates
  constructor
  · rintro (behind | ⟨-, wrote, -⟩)
    · exact .inl behind
    · exact .inr (push_wrote_iff.mp wrote)
  · rintro (behind | stops)
    · exact .inl behind
    · have wrote : (pushExternal cfg c false f now file st).wrote = false := push_wrote_iff.mpr stops
      obtain ⟨failed, untouched⟩ := push_untouched wrote
      exact .inr ⟨failed, wrote, untouched⟩

/-- A push that is not forced overwrites only a prefix of the local chain exactly when everything the storage holds is one or the
push ends before it writes. Where the note was read and describes what is held, only a shorter chain that has forked is overwritten. -/
theorem push_overwrites_iff (opens : Bytes → Option Bytes) (cfg : Config) (c : Codec) (f : Faults) (now : Int) (st : Storage) :
    (∀ file, (Replicates opens c f file st (pushExternal cfg c false f now file st) ↔
        st.Behind opens c (localEntries c f file) ∨ StopsEarly cfg c f file st) ∧
      ∀ held h, held ≠ [] → Chain c held → (∀ e ∈ held, e.Clean) → (∀ e ∈ localEntries c f file, e.Clean) →
        readExternalHead cfg f st = .ok (some h) → h.ledger = ledgerID held ∧ h.seq = headSeq held ∧ h.hash = headHash held →
        ¬ StopsEarly cfg c f file st → held.map Entry.core <+: (localEntries c f file).map Entry.core ∨
          (ledgerID held = ledgerID (localEntries c f file) ∧ held.length < (localEntries c f file).length)) ∧
    ∀ entries file, ((∃ err, (commit cfg c f now entries ⟨file, st⟩).1 = .error err) ∨ entries = []) ∧
        (commit cfg c f now entries ⟨file, st⟩).2.storage = st ∨
      ∃ file', (commit cfg c f now entries ⟨file, st⟩).2.storage = (pushExternal cfg c false f now file' st).storage ∧
        ((commit cfg c f now entries ⟨file, st⟩).1 = .ok () ↔ (pushExternal cfg c false f now file' st).result = .ok ()) := by
  refine ⟨fun file => ⟨replicates_iff, fun held h nonempty chainHeld cleanHeld clean read describes starts => ?_⟩,
    fun entries file => commit_storage cfg c f now entries ⟨file, st⟩⟩
  refine fork_of_no_objection ?_ chainHeld clean cleanHeld nonempty read describes fun objects => starts (.inr (.inr (.inl objects)))
  unfold localEntries
  split
  · trivial
  · exact (parseChain c _).chain

lemma localEntries_encode (chain : Chain c es) : localEntries c .none (some (encode c es)) = es :=
  (parseChain_encode chain).1

def plainConfig : Config := ⟨none, none⟩

lemma push_first (chain : Chain c es) (nonempty : es ≠ [])
    (pushed : st = (pushExternal plainConfig c false .none now (some (encode c es)) ⟨none, none, none⟩).storage) :
    st.plain = some (encode c es) ∧
      ∃ h, st.note = some (.note h) ∧ h.ledger = ledgerID es ∧ h.seq = headSeq es ∧ h.hash = headHash es := by
  obtain ⟨entries, valid, torn⟩ := parseChain_encode chain
  have silent : ¬ NoteObjects plainConfig .none ⟨none, none, none⟩ (parseChain c (encode c es)).entries := by
    rintro ⟨h, read, -⟩
    simp [readExternalHead, Faults.none] at read
  rw [push_working valid (by simpa [entries] using nonempty) fun _ => silent, take_validBytes_whole valid torn, entries] at pushed
  subst pushed
  exact ⟨rfl, _, rfl, rfl, rfl, rfl⟩

def otherEntry : Entry := nextEntry plainCodec none "other"

def secondEntry : Entry := nextEntry plainCodec (some firstEntry) "two"

lemma otherEntry_chain : Chain plainCodec [otherEntry] := ⟨checkLink_nextEntry _ (by simp), trivial⟩

lemma twoEntries_chain : Chain plainCodec [firstEntry, secondEntry] :=
  ⟨checkLink_nextEntry _ (by simp), checkLink_nextEntry _ (by simp [firstEntry, nextEntry]), trivial⟩

lemma otherEntry_clean : otherEntry.Clean := by
  simp [Entry.Clean, otherEntry, nextEntry, genesisPrev, unitSeparator]

lemma firstEntry_clean : firstEntry.Clean := by
  simp [Entry.Clean, firstEntry, nextEntry, genesisPrev, unitSeparator]

lemma separator_notMem_computeHash {e} (h : '|' ∉ [unitSeparator].intercalate e.fields) :
    unitSeparator ∉ (computeHash plainCodec e).toList := by
  intro mem
  change unitSeparator ∈ (String.ofList (List.map PlainCodec.exchange _)).toList at mem
  rw [String.toList_ofList, List.mem_map] at mem
  obtain ⟨ch, mem, exchanged⟩ := mem
  have bar : ch = '|' := by rw [← PlainCodec.exchange_exchange ch, exchanged]; rfl
  exact h (bar ▸ mem)

lemma secondEntry_clean : secondEntry.Clean := by
  have hash : unitSeparator ∉ secondEntry.prev.toList := separator_notMem_computeHash (by decide +kernel)
  simpa [Entry.Clean, hash] using by simp [secondEntry, nextEntry, unitSeparator]

/-- The secondary storage after the other entry was pushed. -/
def forkedStorage : Storage :=
  (pushExternal plainConfig plainCodec false .none 0 (some (encode plainCodec [otherEntry])) ⟨none, none, none⟩).storage

lemma forkedStorage_eq : forkedStorage.plain = some (encode plainCodec [otherEntry]) ∧
    ∃ h, forkedStorage.note = some (.note h) ∧ h.ledger = ledgerID [otherEntry] ∧ h.seq = headSeq [otherEntry] ∧
      h.hash = headHash [otherEntry] :=
  push_first otherEntry_chain (by simp) forkedStorage.eq_1

/-- The longer ledger of the appliance, which has not the other entry. -/
def forkedFile : Option Bytes := some (encode plainCodec [firstEntry, secondEntry])

lemma localEntries_forkedFile : localEntries plainCodec .none forkedFile = [firstEntry, secondEntry] :=
  localEntries_encode twoEntries_chain

lemma push_forked : (pushExternal plainConfig plainCodec false .none 0 forkedFile forkedStorage).result = .ok () ∧
    (pushExternal plainConfig plainCodec false .none 0 forkedFile forkedStorage).wrote = true := by
  obtain ⟨entries, valid, torn⟩ := parseChain_encode twoEntries_chain
  obtain ⟨-, h, note, ledger, seq, hash⟩ := forkedStorage_eq
  have silent : ¬ NoteObjects plainConfig .none forkedStorage [firstEntry, secondEntry] := by
    rintro ⟨h', read, objects⟩
    simp only [readExternalHead, Faults.none, note, plainConfig, Bool.false_eq_true, if_false, Option.any_none, Except.ok.injEq,
      Option.some.injEq] at read
    subst read
    simp [ledger, seq, headSeq, ledgerID, otherEntry, firstEntry, secondEntry, nextEntry] at objects
  unfold forkedFile
  rw [push_working valid (by simp [entries]) fun _ => by rwa [entries]]
  exact ⟨rfl, rfl⟩

/-- The note of the other entry, and the longer ledger. -/
theorem forked_note_is_silent :
    [otherEntry].map Entry.core <+: [firstEntry, secondEntry].map Entry.core ∨
      (ledgerID [otherEntry] = ledgerID [firstEntry, secondEntry] ∧ [otherEntry].length < [firstEntry, secondEntry].length) := by
  obtain ⟨-, h, note, describes⟩ := forkedStorage_eq
  have read : readExternalHead plainConfig .none forkedStorage = .ok (some h) := by
    simp [readExternalHead, Faults.none, note, plainConfig]
  have starts : ¬ StopsEarly plainConfig plainCodec .none forkedFile forkedStorage := fun stops => by
    rw [← @push_wrote_iff _ _ _ _ 0, push_forked.2] at stops
    cases stops
  have let' := ((push_overwrites_iff (fun _ => none) plainConfig plainCodec .none 0 forkedStorage).1 forkedFile).2 [otherEntry] h
    (by simp) otherEntry_chain (by simpa using otherEntry_clean)
    (by simpa [localEntries_forkedFile] using And.intro firstEntry_clean secondEntry_clean) read describes starts
  rwa [localEntries_forkedFile] at let'

/-- A secondary copy that holds an erasure nothing else holds is replaced by a longer ledger without it. -/
theorem shorter_fork_is_overwritten :
    forkedStorage.Holds (fun _ => none) plainCodec [otherEntry] ∧
    (pushExternal plainConfig plainCodec false .none 0 forkedFile forkedStorage).result = .ok () ∧
    ¬ Replicates (fun _ => none) plainCodec .none forkedFile forkedStorage
      (pushExternal plainConfig plainCodec false .none 0 forkedFile forkedStorage) := by
  have holds : forkedStorage.Holds (fun _ => none) plainCodec [otherEntry] :=
    .inl ⟨_, forkedStorage_eq.1, (parseChain_encode otherEntry_chain).1⟩
  refine ⟨holds, push_forked.1, ?_⟩
  rintro (behind | ⟨-, wrote, -⟩)
  · have held := behind _ holds
    simp [localEntries_forkedFile, otherEntry, firstEntry, nextEntry, Entry.core] at held
  · rw [push_forked.2] at wrote
    cases wrote

end StayConnect.Erasure
