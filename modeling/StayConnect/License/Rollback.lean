import StayConnect.License.Store

/-!
# Rollback protection of the licence store

The document on disk is the one the marks accepted, and every versioned document returned so far is older or the same
(`Protected`). Replacements that keep the document and the accepted marks keep that (`Harmless`); an accepted document replaces
both. Between its two files an installation is not protected: the document is there and the marks do not know it.
-/

namespace StayConnect.License
open Transition Tx

def Disk.marks (d : Disk) : StoreState := (d.state.content.bind Text.parse).getD .zero

/-- The state file can be read, or there is none. -/
def Disk.Intact (d : Disk) : Prop := d.state.content.bind Text.parse = none → d.state.content = none ∧ d.state.previous = none

lemma Disk.Intact.readState {d : Disk} (h : d.Intact) : d.readState = .ok d.marks := by
  unfold Disk.readState File.readOrPrev Disk.marks
  cases content : d.state.content.bind Text.parse with
  | none => simp [h content]
  | some st => simp

/-- A later document does not roll back an earlier one. -/
def Follows (a b : Document) : Prop :=
  0 < a.licenseVersion → a.licenseVersion ≤ b.licenseVersion ∧ (a.licenseVersion = b.licenseVersion → a = b)

def StoreState.Accepts (v : Verifier) (st : StoreState) (env : Envelope) (doc : Document) : Prop :=
  0 < st.highestVersion ∨ 0 < doc.licenseVersion →
    st.highestVersion = doc.licenseVersion ∧ st.acceptedLicenseID = doc.licenseID ∧ st.acceptedFingerprint = v.sha256 env.payloadB64

structure Protected (v : Verifier) (s : Store) : Prop where
  state : s.disk.state.content.bind Text.parse = none → s.disk.state.content = none ∧ s.disk.state.previous = none
  current : s.disk.current.content = none → s.disk.current.previous = none ∧ s.disk.marks.highestVersion ≤ 0
  installed : ∀ raw, s.disk.current.content = some raw → ∃ env doc,
    v.decodeEnvelope raw = some env ∧ v.verify env = some doc ∧ s.disk.marks.Accepts v env doc
  returned : ∀ r ∈ s.returned, 0 < r.licenseVersion → ∃ raw doc,
    s.disk.current.content = some raw ∧ v.read raw = some doc ∧ (r.licenseVersion < doc.licenseVersion ∨ r = doc)
  ordered : s.returned.Pairwise Follows

section
variable {v : Verifier} {s : Store} {d : Disk} {rs : List Replacement}

lemma Protected.new (v : Verifier) : Protected v .new where
  state _ := ⟨rfl, rfl⟩
  current _ := ⟨rfl, Int.le_refl _⟩
  installed _ h := nomatch h
  returned _ h := nomatch h
  ordered := .nil

lemma Protected.readState (h : Protected v s) : s.disk.readState = .ok s.disk.marks := Disk.Intact.readState h.state

variable {raw : String} {env : Envelope} {doc : Document} {st : StoreState} {now : Int} {k : Nat}

lemma Verifier.read_eq (decoded : v.decodeEnvelope raw = some env) (verified : v.verify env = some doc) : v.read raw = some doc := by
  rw [Verifier.read, decoded, Option.bind_some, verified]

lemma Protected.load (h : Protected v s) (loaded : License.load v s.disk = .ok doc) :
    ∃ raw, s.disk.current.content = some raw ∧ v.read raw = some doc := by
  unfold License.load File.readOrPrev at loaded
  cases content : s.disk.current.content with
  | none => simp [content, (h.current content).1, ok_bind_iff] at loaded
  | some raw =>
    obtain ⟨env, doc', decoded, verified, -⟩ := h.installed raw content
    have read := Verifier.read_eq decoded verified
    simp only [content, Option.bind_some, read, ok_bind_iff, refuse_ok] at loaded
    obtain ⟨_, ⟨⟩, _, -, _, -, ⟨⟩⟩ := loaded
    exact ⟨raw, rfl, read⟩

lemma Protected.follows (h : Protected v s) (content : s.disk.current.content = some raw)
    (read : v.read raw = some doc) : ∀ r ∈ s.returned, Follows r doc := by
  intro r hr versioned
  obtain ⟨raw', doc', content', read', older⟩ := h.returned r hr versioned
  cases content.symm.trans content'
  cases read.symm.trans read'
  rcases older with lt | rfl
  · exact ⟨Int.le_of_lt lt, fun same => absurd same (Int.ne_of_lt lt)⟩
  · exact ⟨Int.le_refl _, fun _ => rfl⟩

def Replacement.isCurrent : Replacement → Bool
  | .current _ => true
  | _ => false

def Replacement.isState : Replacement → Bool
  | .state _ => true
  | _ => false

def Harmless (d : Disk) : Replacement → Prop
  | .currentPrev _ => d.current.content ≠ none
  | .current _ => False
  | .statePrev _ => d.state.content.bind Text.parse ≠ none
  | .state st => st.highestVersion = d.marks.highestVersion ∧ st.acceptedLicenseID = d.marks.acceptedLicenseID ∧
      st.acceptedFingerprint = d.marks.acceptedFingerprint
  | .revokedPrev _ | .revoked _ => True

lemma Harmless.replace {r r'} (h : Harmless d r) (h' : Harmless d r') : Harmless (d.replace r) r' := by
  cases r with
  | current => exact h.elim
  | state st =>
    obtain ⟨version, id, fingerprint⟩ := h
    cases r' with
    | state st' => exact ⟨h'.1.trans version.symm, h'.2.1.trans id.symm, h'.2.2.trans fingerprint.symm⟩
    | statePrev => exact nofun
    | _ => exact h'
  | _ => cases r' <;> exact h'

lemma Protected.replace {r} (h : Protected v s) (harmless : Harmless s.disk r) : Protected v { s with disk := s.disk.replace r } := by
  cases r with
  | currentPrev raw => exact ⟨h.state, fun none => absurd none harmless, h.installed, h.returned, h.ordered⟩
  | current => exact harmless.elim
  | statePrev st => exact ⟨fun none => absurd none harmless, h.current, h.installed, h.returned, h.ordered⟩
  | state st =>
    obtain ⟨version, id, fingerprint⟩ := harmless
    refine ⟨nofun, fun none => ⟨(h.current none).1, ?_⟩, fun raw content => ?_, h.returned, h.ordered⟩
    · exact Int.le_trans (Int.le_of_eq version) (h.current none).2
    · obtain ⟨env, doc, decoded, verified, accepts⟩ := h.installed raw content
      refine ⟨env, doc, decoded, verified, fun versioned => ?_⟩
      obtain ⟨h₁, h₂, h₃⟩ := accepts (versioned.imp_left fun lt => version ▸ lt)
      exact ⟨version.trans h₁, id.trans h₂, fingerprint.trans h₃⟩
  | revokedPrev | revoked => exact ⟨h.state, h.current, h.installed, h.returned, h.ordered⟩

lemma Protected.replaceAll (h : Protected v s) (harmless : ∀ r ∈ rs, Harmless s.disk r) :
    Protected v { s with disk := s.disk.replaceAll rs } := by
  induction rs generalizing s with
  | nil => exact h
  | cons r rs ih =>
    have first := harmless r List.mem_cons_self
    exact ih (h.replace first) fun r' hr' => first.replace (harmless r' (List.mem_cons_of_mem _ hr'))

lemma harmless_currentPrev {r} (h : r ∈ ((d.current.content.filter v.jsonValid).map Replacement.currentPrev).toList) :
    Harmless d r := by
  simp only [Option.mem_toList, Option.map_eq_some_iff, Option.filter_eq_some_iff] at h
  obtain ⟨raw', ⟨content, -⟩, rfl⟩ := h
  rw [Harmless, content]
  nofun

lemma harmless_writeState (readable : d.state.content.bind Text.parse = none → d.state.content = none) (version : st.highestVersion = d.marks.highestVersion)
    (id : st.acceptedLicenseID = d.marks.acceptedLicenseID) (fingerprint : st.acceptedFingerprint = d.marks.acceptedFingerprint) :
    ∀ r ∈ writeState d st, Harmless d r := by
  intro r hr
  rw [writeState, List.mem_append, Option.mem_toList, Option.map_eq_some_iff, List.mem_singleton] at hr
  rcases hr with ⟨st', content, rfl⟩ | rfl
  · exact fun damaged => nomatch (readable damaged).symm.trans (Option.eq_some_of_filter_eq_some content)
  · exact ⟨version, id, fingerprint⟩

lemma harmless_writeRevoked {ids} : ∀ r ∈ writeRevoked d ids, Harmless d r := by
  intro r hr
  rw [writeRevoked, List.mem_append, Option.mem_toList, Option.map_eq_some_iff, List.mem_singleton] at hr
  rcases hr with ⟨_, _, rfl⟩ | rfl <;> trivial

@[simp] lemma advanceHighWater_highestVersion (st : StoreState) (now : Int) :
    (st.advanceHighWater now).highestVersion = st.highestVersion := by
  unfold StoreState.advanceHighWater
  split <;> rfl

@[simp] lemma advanceHighWater_acceptedLicenseID (st : StoreState) (now : Int) :
    (st.advanceHighWater now).acceptedLicenseID = st.acceptedLicenseID := by
  unfold StoreState.advanceHighWater
  split <;> rfl

@[simp] lemma advanceHighWater_acceptedFingerprint (st : StoreState) (now : Int) :
    (st.advanceHighWater now).acceptedFingerprint = st.acceptedFingerprint := by
  unfold StoreState.advanceHighWater
  split <;> rfl

lemma Protected.harmless (h : Protected v s) {call : Call} (other : ∀ raw now, call ≠ .install raw now) :
    ∀ r ∈ (call.run v s.disk).1, Harmless s.disk r := by
  have state : ∀ {st}, s.disk.readState = .ok st → st = s.disk.marks := fun read => Except.ok.inj (read.symm.trans h.readState)
  have writes := call.writes v s.disk
  generalize (call.run v s.disk).1 = rs at writes ⊢
  cases writes with
  | none | ahead => exact fun _ hr => (nomatch hr)
  | install => exact absurd rfl (other _ _)
  | evaluate read | resetHighWater read | markCloudValidated read =>
    cases state read
    exact harmless_writeState (fun damaged => (h.state damaged).1) (by simp) (by simp) (by simp)
  | addRevocation => exact harmless_writeRevoked

/-- What an installation that is accepted has checked, and its replacements. -/
lemma Protected.install_ok (h : Protected v s)
    (ok : install v raw now s.disk = .ok (doc, rs)) : ∃ env, v.decodeEnvelope raw = some env ∧ v.verify env = some doc ∧
      s.disk.marks.refuses doc (v.sha256 env.payloadB64) = false ∧
      rs = writeCurrent v s.disk raw ++ writeState s.disk (s.disk.marks.accept doc (v.sha256 env.payloadB64) now) := by
  simp only [install, ok_bind_iff, need_ok, refuse_ok, h.readState] at ok
  obtain ⟨env, decoded, doc', verified, st, ⟨⟩, revoked, -, -, -, -, accepted, -, -, ⟨⟩⟩ := ok
  exact ⟨env, decoded, verified, accepted, rfl⟩

lemma refuses_false {fingerprint} (h : st.refuses doc fingerprint = false)
    (versioned : 0 < st.highestVersion) : st.highestVersion ≤ doc.licenseVersion ∧
      (doc.licenseVersion = st.highestVersion → st.acceptedFingerprint ≠ "" → fingerprint = st.acceptedFingerprint) := by
  simp only [StoreState.refuses, versioned, decide_true, Bool.true_and, Bool.or_eq_false_iff, Bool.and_eq_false_iff,
    decide_eq_false_iff_not, not_not, ne_eq, Int.not_lt] at h
  refine ⟨h.1, fun same nonempty => ?_⟩
  rcases h.2 with differs | ⟨-, empty | equal⟩
  · exact absurd same differs
  · exact absurd empty nonempty
  · exact equal

lemma Verifier.verify_congr {env' doc'} (h : v.verify env = some doc) (h' : v.verify env' = some doc')
    (same : env.payloadB64 = env'.payloadB64) : doc = doc' := by
  unfold Verifier.verify at h h'
  split at h
  · split at h'
    · rw [same, h'] at h
      exact (Option.some.inj h).symm
    · cases h'
  · cases h

lemma Protected.accepts_newer (h : Protected v s) (verified : v.verify env = some doc)
    (accepted : s.disk.marks.refuses doc (v.sha256 env.payloadB64) = false) {r} (hr : r ∈ s.returned)
    (versioned : 0 < r.licenseVersion) : r.licenseVersion < doc.licenseVersion ∨ r = doc := by
  obtain ⟨raw, before, content, read, older⟩ := h.returned r hr versioned
  obtain ⟨env', before', decoded, verified', accepts⟩ := h.installed raw content
  obtain rfl : before = before' := Option.some.inj (read.symm.trans (Verifier.read_eq decoded verified'))
  have positive : 0 < before.licenseVersion := by
    rcases older with lt | rfl
    · exact Int.lt_trans versioned lt
    · exact versioned
  obtain ⟨version, -, fingerprint⟩ := accepts (.inr positive)
  obtain ⟨newer, identical⟩ := refuses_false accepted (version ▸ positive)
  rw [version] at newer identical
  rcases Int.lt_or_eq_of_le newer with lt | same
  · left
    rcases older with lt' | rfl
    · exact Int.lt_trans lt' lt
    · exact lt
  · rw [fingerprint] at identical
    have payload := v.sha256_injective (identical same.symm (v.sha256_nonempty _))
    obtain rfl := Verifier.verify_congr verified verified' payload
    exact older

lemma replaceAll_install (raw : String) (st : StoreState) :
    (d.replaceAll (writeCurrent v d raw ++ writeState d st)).current.content = some raw ∧
    (d.replaceAll (writeCurrent v d raw ++ writeState d st)).state.content = some (.value st) := by
  unfold writeCurrent writeState Disk.replaceAll
  simp only [List.foldl_append, List.foldl_cons, List.foldl_nil]
  cases d.state.content.filter Text.jsonValid with
  | none | some st' => exact ⟨rfl, rfl⟩

lemma Protected.installed_whole (h : Protected v s) (decoded : v.decodeEnvelope raw = some env) (verified : v.verify env = some doc)
    (accepted : s.disk.marks.refuses doc (v.sha256 env.payloadB64) = false) {d'} (current : d'.current.content = some raw)
    (state : d'.state.content = some (.value (s.disk.marks.accept doc (v.sha256 env.payloadB64) now))) :
    Protected v { s with disk := d' } where
  state none := by
    rw [state] at none
    cases none
  current none := by
    rw [current] at none
    cases none
  installed raw' content := by
    rw [current] at content
    cases content
    refine ⟨env, doc, decoded, verified, ?_⟩
    rw [Disk.marks, state]
    change (s.disk.marks.accept doc (v.sha256 env.payloadB64) now).Accepts v env doc
    intro versioned
    rcases Int.lt_or_le doc.licenseVersion s.disk.marks.highestVersion with lt | le
    · -- only an unversioned document where nothing versioned was accepted is not recorded
      simp [StoreState.accept, Int.not_le.mpr lt] at versioned
      rcases versioned with positive | positive
      · exact absurd (refuses_false accepted positive).1 (Int.not_le.mpr lt)
      · exact absurd (refuses_false accepted (Int.lt_trans positive lt)).1 (Int.not_le.mpr lt)
    · simp [StoreState.accept, le]
  returned r hr versioned :=
    ⟨raw, doc, current, Verifier.read_eq decoded verified, h.accepts_newer verified accepted hr versioned⟩
  ordered := h.ordered

/-- The condition: an installation whose document is in place has its marks in place. -/
def Step.Whole (v : Verifier) (s : Store) (l : Step) : Prop :=
  (l.made v s.disk).any (·.isCurrent) → (l.made v s.disk).any (·.isState)

lemma take_concat_of_lt {α : Type} {xs : List α} {x : α} (h : k < (xs ++ [x]).length) : (xs ++ [x]).take k = xs.take k := by
  rw [List.take_append_of_le_length]
  simpa [Nat.lt_succ_iff] using h

lemma writeCurrent_isState : (writeCurrent v d raw).any (·.isState) = false := by
  rw [writeCurrent]
  cases d.current.content.filter v.jsonValid <;> rfl

/-- Marks that are being written are in place with the last replacement only. -/
lemma writeState_isState (h : k < (writeState d st).length) : ((writeState d st).take k).any (·.isState) = false := by
  rw [writeState, take_concat_of_lt h, List.any_eq_false]
  intro r hr
  have previous := List.mem_of_mem_take hr
  rw [Option.mem_toList, Option.map_eq_some_iff] at previous
  obtain ⟨_, _, rfl⟩ := previous
  nofun

lemma Protected.cut (h : Protected v s)
    (ok : install v raw now s.disk = .ok (doc, rs)) (whole : (rs.take k).any (·.isCurrent) → (rs.take k).any (·.isState)) :
    Protected v { s with disk := s.disk.replaceAll (rs.take k) } := by
  obtain ⟨env, decoded, verified, accepted, rfl⟩ := h.install_ok ok
  rcases Nat.lt_or_ge k (writeCurrent v s.disk raw).length with before | after
  · -- the document is not in place
    rw [List.take_append_of_le_length (Nat.le_of_lt before), writeCurrent, take_concat_of_lt before]
    exact h.replaceAll fun r hr => harmless_currentPrev (List.mem_of_mem_take hr)
  rw [List.take_append, List.take_of_length_le after] at whole ⊢
  have placed := whole (by simp [writeCurrent, Replacement.isCurrent])
  rw [List.any_append, writeCurrent_isState, Bool.false_or] at placed
  rcases Nat.lt_or_ge (k - (writeCurrent v s.disk raw).length)
    (writeState s.disk (s.disk.marks.accept doc (v.sha256 env.payloadB64) now)).length with short | all
  · rw [writeState_isState short] at placed
    cases placed
  · rw [List.take_of_length_le all]
    obtain ⟨current, state⟩ := replaceAll_install (v := v) (d := s.disk) raw (s.disk.marks.accept doc (v.sha256 env.payloadB64) now)
    exact h.installed_whole decoded verified accepted current state

lemma Protected.return (h : Protected v s) (content : s.disk.current.content = some raw)
    (read : v.read raw = some doc) : Protected v { s with returned := s.returned ++ [doc] } where
  state := h.state
  current := h.current
  installed := h.installed
  returned r hr versioned := by
    rcases List.mem_append.mp hr with old | new
    · exact h.returned r old versioned
    · cases List.mem_singleton.mp new
      exact ⟨raw, doc, content, read, .inr rfl⟩
  ordered := by
    refine List.pairwise_append.mpr ⟨h.ordered, List.pairwise_singleton _ _, fun r hr x hx => ?_⟩
    cases List.mem_singleton.mp hx
    exact h.follows content read r hr

lemma Protected.step (h : Protected v s) {l : Step} (whole : l.Whole v s) : Protected v (s.step v l) := by
  obtain ⟨call, crash⟩ := l
  by_cases installs : ∃ raw now, call = .install raw now
  · obtain ⟨raw, now, rfl⟩ := installs
    cases result : install v raw now s.disk with
    | error e =>
      cases crash with
      | none | some k => simpa [Store.step, Step.made, Call.run, result, Disk.replaceAll] using h
    | ok accepted =>
      obtain ⟨doc, rs⟩ := accepted
      cases crash with
      | some k =>
        simp only [Step.Whole, Step.made, Call.run, result] at whole
        simpa only [Store.step, Step.made, Call.run, result] using h.cut result whole
      | none =>
        obtain ⟨env, decoded, verified, accepted, rfl⟩ := h.install_ok result
        obtain ⟨current, state⟩ := replaceAll_install (v := v) (d := s.disk) raw (s.disk.marks.accept doc (v.sha256 env.payloadB64) now)
        have installed := (h.installed_whole decoded verified accepted current state).return current (Verifier.read_eq decoded verified)
        simpa only [Store.step, Step.made, Call.run, result, Option.toList_some] using installed
  · have harmless : ∀ r ∈ (call.run v s.disk).1, Harmless s.disk r := h.harmless fun raw now e => installs ⟨raw, now, e⟩
    cases crash with
    | some k => exact h.replaceAll fun r hr => harmless r (List.mem_of_mem_take hr)
    | none =>
      cases call with
      | install raw now => exact absurd ⟨raw, now, rfl⟩ installs
      | load =>
        cases result : License.load v s.disk with
        | error e => simpa [Store.step, Step.made, Call.run, result, Disk.replaceAll, Except.toOption] using h
        | ok doc =>
          obtain ⟨raw, content, read⟩ := h.load result
          simpa [Store.step, Step.made, Call.run, result, Disk.replaceAll, Except.toOption] using h.return content read
      | evaluate | resetHighWater | markCloudValidated | addRevocation =>
        have kept := h.replaceAll harmless
        simpa only [Store.step, Step.made, Call.run, Option.toList_none, List.append_nil] using kept

end

/-- In every run of calls and crashes in which no installation is cut between its document and its marks, a document returned
after a versioned one is not older, and one of the same version is the same document. -/
theorem versions_never_roll_back {v : Verifier} {steps : List Step} {s : Store}
    (run : Run (fun s l t => l.Whole v s ∧ t = s.step v l) .new steps s) : s.returned.Pairwise Follows := by
  have kept : Protected v s := by
    refine run.invariant (P := Protected v) ?_ (Protected.new v)
    rintro s l t ⟨whole, rfl⟩ h
    exact h.step whole
  exact kept.ordered

/-- Two documents of a licence, each its own payload. -/
def twoVersions : Verifier where
  decodeEnvelope raw := some ⟨raw, "", ""⟩
  signed _ := true
  document payload := match payload with
    | "first" => some ⟨"L", "T", "S", [], "A", "", "", "", "", 1, 10, .active, 0, 100, 30, 0, 4, ""⟩
    | "second" => some ⟨"L", "T", "S", [], "A", "", "", "", "", 2, 20, .suspended, 0, 100, 30, 0, 4, ""⟩
    | _ => none
  jsonValid _ := true
  sha256 s := s ++ "."
  sha256_injective := dotted_injective
  sha256_nonempty := dotted_nonempty

instance : DecidableRel Follows := fun _ _ => inferInstanceAs (Decidable (_ → _))

instance (v : Verifier) (s : Store) (l : Step) : Decidable (l.Whole v s) := inferInstanceAs (Decidable (_ → _))

/-- The second version is installed again after a crash before its document was in place. -/
def upgrade : List Step :=
  [⟨.install "first" 11, none⟩, ⟨.install "second" 21, some 1⟩, ⟨.load, none⟩, ⟨.install "second" 22, none⟩, ⟨.load, none⟩]

theorem upgrade_survives_crash : ∃ s : Store, Run (fun s l t => l.Whole twoVersions s ∧ t = s.step twoVersions l) .new upgrade s ∧
    s.returned.map (·.licenseVersion) = [1, 1, 2, 2] ∧ s.returned.Pairwise Follows := by
  obtain ⟨s, run, check⟩ := exists_guarded (f := Store.step twoVersions) (G := fun s l => l.Whole twoVersions s) (s := .new)
    (l := upgrade) (P := fun s => s.returned.map (·.licenseVersion) = [1, 1, 2, 2]) (by decide +kernel)
  exact ⟨s, run, of_decide_eq_true check, versions_never_roll_back run⟩

/-- The installation of the second version is cut after its document is in place: it is returned, and then the first version is
accepted again. -/
def rolledBack : Store :=
  ([⟨.install "first" 11, none⟩, ⟨.install "second" 21, some 2⟩, ⟨.load, none⟩, ⟨.install "first" 22, none⟩] : List Step).foldl
    (Store.step twoVersions) .new

theorem first_version_after_second :
    rolledBack.returned.map (·.licenseVersion) = [1, 2, 1] ∧ ¬ rolledBack.returned.Pairwise Follows := by
  decide +kernel

end StayConnect.License
