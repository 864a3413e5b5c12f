import StayConnect.License.Rollback

/-!
# Revocations on the appliance

`AddRevocation` adds an id to `revoked.json`; `Evaluate` and `Install` read the ids back. A file that no longer parses is read
from its previous copy, which is one write behind. What the ids read contain is decided by the file and that copy (`Listing`);
only `AddRevocation` and damage touch them.
-/

namespace StayConnect.License
open Transition Tx

/-- The files, and the ids whose revocation was acknowledged. -/
structure Revoking where
  disk : Disk
  acknowledged : List String

def Revoking.new : Revoking := ⟨.empty, []⟩

/-- The file is there and does not parse any more; its previous copy is intact. -/
def File.damage {α : Type} (f : File (Text α)) (json : Bool) : File (Text α) :=
  { f with content := f.content.map fun _ => .damaged json }

inductive Incident where
  | step (l : Step)
  | stateDamaged (json : Bool)
  | revokedDamaged (json : Bool)

/-- The id of an `AddRevocation` that returns success. -/
def Step.acknowledges (d : Disk) : Step → List String
  | ⟨.addRevocation id, none⟩ => if (addRevocation id d).toOption.isSome then [id] else []
  | _ => []

def Revoking.step (v : Verifier) (s : Revoking) : Incident → Revoking
  | .step l =>
    { disk := s.disk.replaceAll (l.made v s.disk)
      acknowledged := s.acknowledged ++ l.acknowledges s.disk }
  | .stateDamaged json => { s with disk.state := s.disk.state.damage json }
  | .revokedDamaged json => { s with disk.revoked := s.disk.revoked.damage json }

/-- No acknowledged revocation is forgotten: it is among the ids read, a licence it names evaluates as revoked, and is not
installed. -/
structure Remembered (v : Verifier) (s : Revoking) : Prop where
  listed : ∀ ids, s.disk.readRevoked = .ok ids → ∀ id ∈ s.acknowledged, id ∈ ids
  evaluated : ∀ now ev rs, evaluate v now s.disk = .ok (ev, rs) → ev.doc.licenseID ∈ s.acknowledged → ev.state = .revoked
  refused : ∀ raw now doc, v.read raw = some doc → doc.licenseID ∈ s.acknowledged → ∃ e, install v raw now s.disk = .error e

/-- The condition: when `revoked.json` is damaged, its previous copy, if it can be read, lists what the file listed. -/
def Incident.Covered (d : Disk) : Incident → Prop
  | .revokedDamaged _ => ∀ ids, d.revoked.content.bind Text.parse = some ids →
      ∀ old, d.revoked.previous.bind Text.parse = some old → ids ⊆ old
  | _ => True

section
variable {v : Verifier} {s : Revoking} {d : Disk} {rs : List Replacement} {ids acknowledged : List String}

lemma readRevoked_of_parsed (current : d.revoked.content.bind Text.parse = some ids) : d.readRevoked = .ok ids := by
  simp [Disk.readRevoked, File.readOrPrev, current]

lemma readRevoked_of_damaged (unparsed : d.revoked.content.bind Text.parse = none) (content : d.revoked.content ≠ none) :
    d.readRevoked = .ok ids ↔ d.revoked.previous.bind Text.parse = some ids := by
  have present : d.revoked.content.isNone = false := by simpa [Option.isNone_eq_false_iff, Option.isSome_iff_ne_none] using content
  simp only [Disk.readRevoked, File.readOrPrev, unparsed, present, Bool.false_and, Bool.false_eq_true, if_false]
  cases d.revoked.previous.bind Text.parse <;> simp

structure Listing (d : Disk) (acknowledged : List String) : Prop where
  absent : d.revoked.content = none → d.revoked.previous = none
  listed : ∀ ids, d.readRevoked = .ok ids → acknowledged ⊆ ids

lemma Listing.mono {fewer} (h : Listing d acknowledged) (le : fewer ⊆ acknowledged) : Listing d fewer where
  absent := h.absent
  listed ids read := List.Subset.trans le (h.listed ids read)

lemma Listing.congr {d'} (h : Listing d acknowledged) (same : d'.revoked = d.revoked) : Listing d' acknowledged where
  absent := same ▸ h.absent
  listed ids read := h.listed ids (by simpa only [Disk.readRevoked, same] using read)

lemma Listing.remembered (h : Listing s.disk s.acknowledged) : Remembered v s where
  listed ids read id mem := h.listed ids read mem
  evaluated now ev rs ok named := by
    simp only [evaluate, ok_bind_iff] at ok
    obtain ⟨doc, -, st, -, ids, read, ⟨⟩⟩ := ok
    have listed : doc.licenseID ∈ ids := h.listed ids read named
    exact if_pos (List.contains_iff_mem.mpr listed)
  refused raw now doc valid named := by
    cases result : install v raw now s.disk with
    | error e => exact ⟨e, rfl⟩
    | ok installed =>
      simp only [install, ok_bind_iff, need_ok, refuse_ok] at result
      obtain ⟨env, decoded, doc', verified, st, -, ids, read, -, unlisted, -⟩ := result
      cases valid.symm.trans (Verifier.read_eq decoded verified)
      have listed : doc.licenseID ∈ ids := h.listed ids read named
      rw [List.contains_iff_mem.mpr listed] at unlisted
      cases unlisted

lemma Listing.damage (h : Listing d acknowledged) {json} (covered : (Incident.revokedDamaged json).Covered d) :
    Listing { d with revoked := d.revoked.damage json } acknowledged where
  absent none := h.absent (Option.map_eq_none_iff.mp none)
  listed ids read := by
    cases content : d.revoked.content with
    | none =>
      have same : d.revoked.damage json = d.revoked := by rw [File.damage, content, Option.map_none, ← content]
      exact h.listed ids (by rwa [same] at read)
    | some text =>
      rw [readRevoked_of_damaged (by simp [File.damage, content, Text.parse]) (by simp [File.damage, content])] at read
      have previous : d.revoked.previous.bind Text.parse = some ids := read
      cases current : d.revoked.content.bind Text.parse with
      | some listed => exact List.Subset.trans (h.listed listed (readRevoked_of_parsed current)) (covered listed current ids previous)
      | none => exact h.listed ids ((readRevoked_of_damaged current (by simp [content])).mpr previous)

lemma Listing.add (h : Listing d acknowledged) {id} (read : d.readRevoked = .ok ids) {previous} :
    Listing { d with revoked := ⟨some (.value (ids ++ [id])), previous⟩ } (acknowledged ++ [id]) where
  absent := nofun
  listed ids' read' := by
    rw [readRevoked_of_parsed rfl] at read'
    cases read'
    exact List.append_subset.mpr ⟨List.subset_append_of_subset_left _ (h.listed ids read), List.subset_append_right _ _⟩

lemma Listing.noted (h : Listing d acknowledged) {id} (read : d.readRevoked = .ok ids) (mem : id ∈ ids) :
    Listing d (acknowledged ++ [id]) where
  absent := h.absent
  listed ids' read' := by
    cases read.symm.trans read'
    exact List.append_subset.mpr ⟨h.listed ids read, by simpa using mem⟩

lemma Listing.copy {text} (h : Listing d acknowledged) (content : d.revoked.content = some text) :
    Listing { d with revoked := { d.revoked with previous := some text } } acknowledged where
  absent empty := nomatch content.symm.trans empty
  listed ids read := by
    cases parsed : text.parse with
    | some ids' =>
      rw [readRevoked_of_parsed (show _ = some ids' by simp [content, parsed])] at read
      cases read
      exact h.listed _ (readRevoked_of_parsed (by rw [content, Option.bind_some, parsed]))
    | none =>
      rw [readRevoked_of_damaged (by simp [content, parsed]) (by simp [content])] at read
      exact nomatch parsed.symm.trans read

def Replacement.aside : Replacement → Bool
  | .revokedPrev _ | .revoked _ => false
  | _ => true

lemma replaceAll_revoked (h : ∀ r ∈ rs, r.aside) : (d.replaceAll rs).revoked = d.revoked := by
  induction rs generalizing d with
  | nil => rfl
  | cons r rs ih =>
    change ((d.replace r).replaceAll rs).revoked = _
    rw [ih fun r' hr' => h r' (List.mem_cons_of_mem _ hr')]
    have here := h r List.mem_cons_self
    cases r with
    | revokedPrev | revoked => cases here
    | _ => rfl

lemma writeState_aside {st} : ∀ r ∈ writeState d st, r.aside := by
  rw [writeState]
  cases d.state.content.filter Text.jsonValid <;> simp [Replacement.aside]

lemma writeCurrent_aside {raw} : ∀ r ∈ writeCurrent v d raw, r.aside := by
  rw [writeCurrent]
  cases d.current.content.filter v.jsonValid <;> simp [Replacement.aside]

/-- Only `AddRevocation` replaces `revoked.json`. -/
lemma run_aside {call : Call} (other : ∀ id, call ≠ .addRevocation id) : ∀ r ∈ (call.run v d).1, r.aside := by
  have writes := call.writes v d
  generalize (call.run v d).1 = rs at writes ⊢
  cases writes with
  | none | ahead => exact fun _ hr => (nomatch hr)
  | install => exact fun r hr => (List.mem_append.mp hr).elim (writeCurrent_aside r) (writeState_aside r)
  | evaluate | resetHighWater | markCloudValidated => exact writeState_aside
  | addRevocation => exact absurd rfl (other _)

/-- The replacements of an `AddRevocation`, all of them or the first few. -/
lemma Listing.writeRevoked (h : Listing d acknowledged) {id} (read : d.readRevoked = .ok ids) :
    Listing (d.replaceAll (License.writeRevoked d (ids ++ [id]))) (acknowledged ++ [id]) ∧
    ∀ k, Listing (d.replaceAll ((License.writeRevoked d (ids ++ [id])).take k)) acknowledged := by
  have whole : Listing (d.replaceAll (License.writeRevoked d (ids ++ [id]))) (acknowledged ++ [id]) := by
    unfold License.writeRevoked
    cases d.revoked.content.filter Text.jsonValid <;> exact h.add read
  refine ⟨whole, fun k => ?_⟩
  rcases Nat.lt_or_ge k (License.writeRevoked d (ids ++ [id])).length with short | all
  · -- the file itself is not replaced
    rw [License.writeRevoked, take_concat_of_lt short]
    cases copied : d.revoked.content.filter Text.jsonValid with
    | none => simpa [Disk.replaceAll] using h
    | some text =>
      cases k with
      | zero => exact h
      | succ k =>
        simp only [Option.map_some, Option.toList_some, List.take_succ_cons, List.take_nil]
        exact h.copy (Option.eq_some_of_filter_eq_some copied)
  · rw [List.take_of_length_le all]
    exact whole.mono (List.subset_append_left _ _)

lemma Listing.addRevocation (h : Listing d acknowledged) {id rs} (ok : License.addRevocation id d = .ok rs) :
    Listing (d.replaceAll rs) (acknowledged ++ [id]) ∧ ∀ k, Listing (d.replaceAll (rs.take k)) acknowledged := by
  simp only [License.addRevocation, ok_bind_iff] at ok
  obtain ⟨ids, read, written⟩ := ok
  split at written
  case isTrue known =>
    cases written
    exact ⟨h.noted read (List.contains_iff_mem.mp known), fun k => by simpa [Disk.replaceAll] using h⟩
  case isFalse =>
    cases written
    exact h.writeRevoked read

lemma Listing.step (h : Listing s.disk s.acknowledged) {i : Incident} (covered : i.Covered s.disk) :
    Listing (s.step v i).disk (s.step v i).acknowledged := by
  cases i with
  | stateDamaged json => exact h.congr rfl
  | revokedDamaged json => exact h.damage covered
  | step l =>
    obtain ⟨call, crash⟩ := l
    by_cases adds : ∃ id, call = .addRevocation id
    · obtain ⟨id, rfl⟩ := adds
      cases result : License.addRevocation id s.disk with
      | error e => cases crash <;> simpa [Revoking.step, Step.made, Call.run, result, Step.acknowledges, Except.toOption, Disk.replaceAll] using h
      | ok rs =>
        obtain ⟨whole, cut⟩ := h.addRevocation result
        cases crash with
        | none => simpa [Revoking.step, Step.made, Call.run, result, Step.acknowledges, Except.toOption] using whole
        | some k => simpa [Revoking.step, Step.made, Call.run, result, Step.acknowledges, Except.toOption] using cut k
    · have aside : ∀ r ∈ (call.run v s.disk).1, r.aside := run_aside fun id e => adds ⟨id, e⟩
      have none : Step.acknowledges s.disk ⟨call, crash⟩ = [] := by
        unfold Step.acknowledges
        split
        case h_1 heq => cases heq; exact absurd ⟨_, rfl⟩ adds
        case h_2 => rfl
      have made : ∀ r ∈ Step.made v s.disk ⟨call, crash⟩, r.aside := by
        cases crash with
        | none => exact aside
        | some k => exact fun r hr => aside r (List.mem_of_mem_take hr)
      exact (h.congr (replaceAll_revoked made)).mono (by simp [Revoking.step, none])

end

/-- In every run of calls, crashes and damage in which `revoked.json` is damaged only while its previous copy lists what it
listed, or cannot be read, no acknowledged revocation is forgotten. -/
theorem revocations_remembered {v : Verifier} {incidents : List Incident} {s : Revoking}
    (run : Run (fun s i t => i.Covered s.disk ∧ t = s.step v i) .new incidents s) : Remembered v s := by
  have kept : Listing s.disk s.acknowledged := by
    refine run.invariant (P := fun s => Listing s.disk s.acknowledged) ?_ ⟨fun _ => rfl, fun _ _ => List.nil_subset _⟩
    rintro s i t ⟨covered, rfl⟩ h
    exact h.step covered
  exact kept.remembered

instance (d : Disk) (i : Incident) : Decidable (i.Covered d) :=
  match i with
  | .step _ | .stateDamaged _ => inferInstanceAs (Decidable True)
  | .revokedDamaged _ =>
    match current : d.revoked.content.bind Text.parse, previous : d.revoked.previous.bind Text.parse with
    | some ids, some old => decidable_of_iff (∀ id ∈ ids, id ∈ old) (by simp [Incident.Covered, current, previous, List.subset_def])
    | none, _ => .isTrue (by simp [Incident.Covered, current])
    | _, none => .isTrue (by simp [Incident.Covered, previous])

/-- The second revocation is cut before `revoked.json` is replaced; the file is damaged, and the revocation is made again. -/
def repeated : List Incident :=
  [.step ⟨.install "first" 11, none⟩, .step ⟨.addRevocation "K", none⟩, .step ⟨.addRevocation "L", some 1⟩, .revokedDamaged false,
    .step ⟨.addRevocation "L", none⟩, .stateDamaged true]

theorem repeated_remembered : ∃ s : Revoking,
    Run (fun s i t => i.Covered s.disk ∧ t = s.step twoVersions i) .new repeated s ∧ s.acknowledged = ["K", "L"] ∧
      Remembered twoVersions s := by
  obtain ⟨s, run, check⟩ := exists_guarded (f := Revoking.step twoVersions) (G := fun s i => i.Covered s.disk) (s := .new)
    (l := repeated) (P := fun s => s.acknowledged = ["K", "L"]) (by decide +kernel)
  exact ⟨s, run, of_decide_eq_true check, revocations_remembered run⟩

/-- Two revocations are acknowledged, and the file that lists both is damaged. -/
def forgotten : Revoking :=
  ([.step ⟨.install "first" 11, none⟩, .step ⟨.addRevocation "K", none⟩, .step ⟨.addRevocation "L", none⟩,
    .revokedDamaged false] : List Incident).foldl (Revoking.step twoVersions) .new

/-- The last revocation is forgotten: the licence evaluates as active, and is installed again. -/
theorem last_revocation_is_forgotten : "L" ∈ forgotten.acknowledged ∧ forgotten.disk.readRevoked = .ok ["K"] ∧
    (evaluate twoVersions 12 forgotten.disk).toOption.map (fun r => (r.1.doc.licenseID, r.1.state)) = some ("L", .active) ∧
    (install twoVersions "first" 12 forgotten.disk).toOption.map (·.1.licenseID) = some "L" ∧
    ¬ Remembered twoVersions forgotten := by
  refine ⟨by decide +kernel, by decide +kernel, by decide +kernel, by decide +kernel, fun h => ?_⟩
  have listed := h.listed ["K"] (by decide +kernel) "L" (by decide +kernel)
  simp at listed

end StayConnect.License
