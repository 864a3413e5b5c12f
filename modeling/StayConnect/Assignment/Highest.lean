import StayConnect.Assignment.Trust

/-!
# An older assignment is not granted again

`Resolve` grants scope from a document that is not older than the highest version on file, and no document in place is newer than
that version (`Recorded`). An adoption replaces the assignment first and the highest version second: cut in between, the document
in place is newer than the version on file.
-/

namespace StayConnect.Assignment
open Transition Tx

variable {c : Crypto} {applianceID serial fpr : String} {now : Int} {s : Appliance c} {d : Disk c}

/-- Adoptions for one appliance with increasing versions, and files put back that are not newer than the last adopted document. -/
def Act.Ordered (applianceID : String) (s : Appliance c) : Act → Prop
  | .adopt doc _ _ => doc.applianceID = applianceID ∧ ∀ n ∈ s.newest, n < doc.version
  | .restore file => ∀ rec ∈ { s.disk with assignment := some file }.record, ∃ n ∈ s.newest, rec.current.version ≤ n
  | _ => True

/-- The condition: where an adoption replaces the assignment, the version on file at the end is not lower than the document's. -/
def Act.Recorded (applianceID : String) (s : Appliance c) (a : Act) : Prop :=
  match a with
  | .adopt doc _ _ => (a.made s.disk).any (·.isAssignment) →
      doc.version ≤ (s.disk.replaceAll (a.made s.disk)).highestAdopted applianceID
  | _ => True

lemma acceptForRegistry_bound {reg doc haveVersion u}
    (h : acceptForRegistry c reg doc applianceID serial fpr haveVersion = .ok u) : doc.applianceID = applianceID := by
  simp only [acceptForRegistry, acceptFor, ok_bind_iff, refuse_ok] at h
  obtain ⟨_, -, _, -, _, -, _, -, _, -, _, bound, -⟩ := h
  simpa using bound

lemma record_eq {rec} : d.record = some rec ↔ d.loadAssignment = some (.ok rec) := by
  unfold Disk.record
  cases d.loadAssignment with
  | none => simp
  | some r => cases r <;> simp [Except.toOption]

lemma resolve_granted (h : (d.resolve applianceID serial fpr now).outcome = .granted) : ∃ rec, d.record = some rec ∧
    (d.resolve applianceID serial fpr now).version = rec.current.version ∧ d.highestAdopted applianceID ≤ rec.current.version := by
  unfold Disk.resolve at h ⊢
  split at h
  case h_1 => cases h
  case h_2 => cases h
  case h_3 rec load =>
    simp only at h ⊢
    split at h
    case isTrue => cases h
    case isFalse newer =>
      rw [if_neg newer]
      split at h
      case h_1 => cases h
      case h_2 reg trusted =>
        split at h
        case h_1 => cases h
        case h_2 accepted =>
          rw [acceptForRegistry_bound accepted] at newer
          split at h
          case isTrue grants => exact ⟨rec, record_eq.mpr load, by simp [grants], Int.not_lt.mp newer⟩
          case isFalse => cases h

lemma resolve_refused {rec} (load : d.record = some rec) (older : rec.current.version < d.highestAdopted applianceID) :
    (d.resolve applianceID serial fpr now).refused = true := by
  unfold Disk.resolve
  rw [record_eq.mp load]
  simp only
  split
  case isTrue => rfl
  case isFalse newer =>
    split
    case h_1 => rfl
    case h_2 =>
      split
      case h_1 => rfl
      case h_2 accepted =>
        rw [acceptForRegistry_bound accepted] at newer
        exact absurd older newer

structure OnFile (applianceID : String) (s : Appliance c) : Prop where
  newest : ∀ n ∈ s.newest, n ≤ s.disk.highestAdopted applianceID
  inPlace : ∀ rec ∈ s.disk.record, ∃ n ∈ s.newest, rec.current.version ≤ n
  granted : ∀ g ∈ s.granted, g ≤ s.disk.highestAdopted applianceID
  ordered : s.granted.Pairwise (· ≤ ·)

lemma OnFile.new (root : Option c.Pub) (trust : Option Registry) : OnFile applianceID (.new root trust : Appliance c) where
  newest _ h := nomatch h
  inPlace _ h := nomatch h
  granted _ h := nomatch h
  ordered := .nil

lemma OnFile.aside (h : OnFile applianceID s) {disk : Disk c} {losses : Nat} {answers : List Answer}
    (assignment : disk.assignment = s.disk.assignment) (highest : disk.highest = s.disk.highest) :
    OnFile applianceID { s with disk, losses, answers } := by
  have same : disk.highestAdopted applianceID = s.disk.highestAdopted applianceID := by
    rw [Disk.highestAdopted, Disk.highestAdopted, highest]
  have record : disk.record = s.disk.record := by
    rw [Disk.record, Disk.record, Disk.loadAssignment, Disk.loadAssignment, assignment]
  refine ⟨fun n hn => ?_, fun rec hrec => ?_, fun g hg => ?_, h.ordered⟩
  · exact same ▸ h.newest n hn
  · exact h.inPlace rec (record ▸ hrec)
  · exact same ▸ h.granted g hg

lemma OnFile.note (h : OnFile applianceID s) {ok crash} : OnFile applianceID (s.step applianceID (.noteRefresh ok now crash)) := by
  have made : (Act.noteRefresh ok now crash).made s.disk = [] ∨ ∃ old rec, s.disk.record = some old ∧
      (Act.noteRefresh ok now crash).made s.disk = [.assignment rec] ∧ rec.current = old.current := by
    change cut (s.disk.noteRefresh ok now) crash = _ ∨ ∃ _ _, _ ∧ cut (s.disk.noteRefresh ok now) crash = _ ∧ _
    unfold Disk.noteRefresh
    cases load : s.disk.record with
    | none => exact .inl (by cases crash <;> simp [cut])
    | some old =>
      cases crash with
      | none => exact .inr ⟨old, _, rfl, rfl, rfl⟩
      | some k =>
        cases k with
        | zero => exact .inl rfl
        | succ k => exact .inr ⟨old, _, rfl, List.take_of_length_le (Nat.le_add_left 1 k), rfl⟩
  change OnFile applianceID { s with disk := s.disk.replaceAll ((Act.noteRefresh ok now crash).made s.disk) }
  rcases made with nothing | ⟨old, rec, load, written, same⟩
  · rw [nothing]
    exact h
  rw [written]
  refine ⟨h.newest, fun rec' hrec => ?_, h.granted, h.ordered⟩
  cases hrec
  exact same ▸ h.inPlace old load

lemma OnFile.adopt (h : OnFile applianceID s) {doc crash} (ordered : (Act.adopt doc now crash).Ordered applianceID s)
    (recorded : (Act.adopt doc now crash).Recorded applianceID s) : OnFile applianceID (s.step applianceID (.adopt doc now crash)) := by
  obtain ⟨rfl, newer⟩ := ordered
  have parts : (Act.adopt doc now crash).made s.disk = [] ∨ ∃ rec rest, rec.current = doc ∧
      (Act.adopt doc now crash).made s.disk = .assignment rec :: rest ∧
      (rest = [] ∨ s.disk.highestAdopted doc.applianceID < doc.version ∧ rest = [.highest doc.applianceID doc.version]) := by
    change cut (s.disk.adopt doc now) crash = _ ∨ ∃ _ _, _ ∧ cut (s.disk.adopt doc now) crash = _ ∧ _
    unfold Disk.adopt
    match crash with
    | none =>
      refine .inr ⟨_, _, rfl, rfl, ?_⟩
      split
      case isTrue higher => exact .inr ⟨higher.2, rfl⟩
      case isFalse => exact .inl rfl
    | some 0 => exact .inl rfl
    | some (k + 1) =>
      refine .inr ⟨_, _, rfl, rfl, ?_⟩
      split
      case isTrue higher =>
        cases k with
        | zero => exact .inl rfl
        | succ k => exact .inr ⟨higher.2, by simp⟩
      case isFalse => exact .inl (by simp)
  unfold Act.Recorded at recorded
  simp only [Appliance.step]
  rcases parts with nothing | ⟨rec, rest, current, written, short⟩
  · rw [nothing]
    exact h
  have placed : ((Act.adopt doc now crash).made s.disk).any (·.isAssignment) = true := by
    rw [written]
    rfl
  have higher := recorded placed
  rw [if_pos placed]
  rw [written] at higher ⊢
  -- the version on file does not fall
  have grows : s.disk.highestAdopted doc.applianceID ≤ (s.disk.replaceAll (.assignment rec :: rest)).highestAdopted doc.applianceID := by
    rcases short with rfl | ⟨lt, rfl⟩
    · exact Int.le_refl _
    · exact Int.le_trans (Int.le_of_lt lt) higher
  refine ⟨fun n hn => ?_, fun rec' hrec => ?_, fun g hg => ?_, h.ordered⟩
  · cases hn
    exact higher
  · have inPlace : rec' = rec := by
      rcases short with rfl | ⟨-, rfl⟩ <;> exact (Option.some.inj hrec).symm
    exact ⟨doc.version, rfl, Int.le_of_eq (by rw [inPlace, current])⟩
  · exact Int.le_trans (h.granted g hg) grows

lemma OnFile.resolve (h : OnFile applianceID s) : OnFile applianceID (s.step applianceID (.resolve serial fpr now)) := by
  simp only [Appliance.step]
  split
  case isFalse => exact h
  case isTrue granted =>
    obtain ⟨rec, load, version, onFile⟩ := resolve_granted granted
    obtain ⟨n, hn, le⟩ := h.inPlace rec load
    have below : rec.current.version ≤ s.disk.highestAdopted applianceID := Int.le_trans le (h.newest n hn)
    refine ⟨h.newest, h.inPlace, fun g hg => ?_, List.pairwise_append.mpr ⟨h.ordered, List.pairwise_singleton _ _, fun g hg g' hg' => ?_⟩⟩
    · rcases List.mem_append.mp hg with old | new
      · exact h.granted g old
      · cases List.mem_singleton.mp new
        exact version ▸ below
    · cases List.mem_singleton.mp hg'
      exact Int.le_trans (h.granted g hg) (version ▸ onFile)

lemma replaceAll_registry {rs} (h : ∀ r ∈ rs, r.isRegistry = true ∨ r = .adopted) :
    (d.replaceAll rs).assignment = d.assignment ∧ (d.replaceAll rs).highest = d.highest := by
  induction rs generalizing d with
  | nil => exact ⟨rfl, rfl⟩
  | cons r rs ih =>
    obtain ⟨assignment, highest⟩ := ih (d := d.replace r) fun r' hr' => h r' (List.mem_cons_of_mem _ hr')
    have here : (d.replace r).assignment = d.assignment ∧ (d.replace r).highest = d.highest := by
      cases r with
      | registry | adopted => exact ⟨rfl, rfl⟩
      | assignment | highest => exact absurd (h _ List.mem_cons_self) (by simp [Replacement.isRegistry])
    exact ⟨assignment.trans here.1, highest.trans here.2⟩

lemma OnFile.step (h : OnFile applianceID s) {a : Act} (ordered : a.Ordered applianceID s) (recorded : a.Recorded applianceID s) :
    OnFile applianceID (s.step applianceID a) := by
  cases a with
  | adoptRegistry sr now crash =>
    have registry : ∀ r ∈ (Act.adoptRegistry sr now crash).made s.disk, r.isRegistry = true ∨ r = .adopted := by
      intro r hr
      have mem := mem_of_cut hr
      rcases adoptRegistry_cases s.disk sr now with nothing | ⟨_, rec, -, -, -, -, writes⟩
      · rw [nothing] at mem
        cases mem
      rw [writes, List.mem_cons] at mem
      rcases mem with rfl | rest
      · exact .inl rfl
      · split at rest
        · cases rest
        · exact .inr (List.mem_singleton.mp rest)
    obtain ⟨assignment, highest⟩ := replaceAll_registry (d := s.disk) registry
    exact h.aside assignment highest
  | trustedRegistry now => exact h.aside rfl rfl
  | loseRegistry =>
    have same : OnFile applianceID { s with disk := { s.disk with registry := none }, losses := s.losses + 1 } := h.aside rfl rfl
    exact same
  | loseRoot =>
    have same : OnFile applianceID { s with disk := { s.disk with root := none } } := h.aside rfl rfl
    exact same
  | trust reg =>
    have same : OnFile applianceID { s with disk := { s.disk with trust := reg } } := h.aside rfl rfl
    exact same
  | adopt doc now crash => exact h.adopt ordered recorded
  | noteRefresh ok now crash => exact h.note
  | restore file => exact ⟨h.newest, ordered, h.granted, h.ordered⟩
  | resolve serial fpr now => exact h.resolve

/-- In every run of a clean appliance whose adoptions have increasing versions and record them, whatever not newer document is
put back, the versions scope is granted from do not fall, and a document older than one of them is refused. -/
theorem older_assignment_refused {root : Option c.Pub} {trust : Option Registry} {acts : List Act}
    (run : Run (fun s a t => a.Ordered applianceID s ∧ a.Recorded applianceID s ∧ t = s.step applianceID a) (.new root trust) acts s) :
    s.granted.Pairwise (· ≤ ·) ∧ ∀ rec ∈ s.disk.record, ∀ g ∈ s.granted, rec.current.version < g →
      ∀ serial fpr now, (s.disk.resolve applianceID serial fpr now).refused = true := by
  have onFile : OnFile applianceID s := by
    refine run.invariant (P := OnFile applianceID) ?_ (OnFile.new root trust)
    rintro s a t ⟨ordered, recorded, rfl⟩ h
    exact h.step ordered recorded
  exact ⟨onFile.ordered, fun rec load g hg older serial fpr now => resolve_refused load (Int.lt_of_lt_of_le older (onFile.granted g hg))⟩

def assignmentOf (version : Int) : Document :=
  ⟨"n", "a", "", "", "tenant", "site", version, .assigned, 0, 0, "k", "k", ""⟩

instance (s : Appliance c) (a : Act) : Decidable (a.Ordered applianceID s) :=
  match a with
  | .adopt doc _ _ => inferInstanceAs (Decidable (doc.applianceID = applianceID ∧ ∀ n ∈ s.newest, n < doc.version))
  | .restore file => inferInstanceAs (Decidable (∀ rec ∈ { s.disk with assignment := some file }.record, ∃ n ∈ s.newest, rec.current.version ≤ n))
  | .adoptRegistry .. | .trustedRegistry _ | .loseRegistry | .loseRoot | .trust _ | .noteRefresh .. | .resolve .. =>
    inferInstanceAs (Decidable True)

instance (s : Appliance c) (a : Act) : Decidable (a.Recorded applianceID s) :=
  match a with
  | .adopt .. => inferInstanceAs (Decidable (_ → _))
  | .adoptRegistry .. | .trustedRegistry _ | .loseRegistry | .loseRoot | .trust _ | .noteRefresh .. | .restore _ | .resolve .. =>
    inferInstanceAs (Decidable True)

/-- The second adoption is cut before it writes and made again; then the first document is put back. -/
def restored : List Act :=
  [.adoptRegistry (registryOf 1) 1 none, .adopt (assignmentOf 1) 2 none, .resolve "" "" 3, .adopt (assignmentOf 2) 4 (some 0),
    .adopt (assignmentOf 2) 5 none, .resolve "" "" 6, .restore (.bare (assignmentOf 1)), .resolve "" "" 7]

theorem restored_is_refused : ∃ s : Appliance oneRoot,
    Run (fun s a t => a.Ordered "a" s ∧ a.Recorded "a" s ∧ t = s.step "a" a) (.new (some ()) none) restored s ∧ s.granted = [1, 2] ∧
      ∀ rec ∈ s.disk.record, ∀ g ∈ s.granted, rec.current.version < g →
        ∀ serial fpr now, (s.disk.resolve "a" serial fpr now).refused = true := by
  obtain ⟨s, run, check⟩ := exists_guarded (f := Appliance.step "a") (G := fun s a => a.Ordered "a" s ∧ a.Recorded "a" s)
    (s := (.new (some ()) none : Appliance oneRoot)) (l := restored) (P := fun s => s.granted = [1, 2]) (by decide +kernel)
  have run' : Run (fun s a t => a.Ordered "a" s ∧ a.Recorded "a" s ∧ t = s.step "a" a) _ restored s :=
    run.mono fun h => ⟨h.1.1, h.1.2, h.2⟩
  exact ⟨s, run', of_decide_eq_true check, (older_assignment_refused run').2⟩

/-- The second adoption is cut before the highest version is written: its document is granted, and then the first one again. -/
def grantedAgain : Appliance oneRoot :=
  ([.adoptRegistry (registryOf 1) 1 none, .adopt (assignmentOf 1) 2 none, .adopt (assignmentOf 2) 3 (some 1), .resolve "" "" 4,
    .restore (.bare (assignmentOf 1)), .resolve "" "" 5] : List Act).foldl (Appliance.step "a") (.new (some ()) none)

theorem older_assignment_is_granted : grantedAgain.granted = [2, 1] ∧ ¬ grantedAgain.granted.Pairwise (· ≤ ·) := by
  decide +kernel

end StayConnect.Assignment
