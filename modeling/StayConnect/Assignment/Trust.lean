import StayConnect.Assignment.Store

/-!
# Trust is not downgraded

A registry file stands with its marker, its registry is signed by the root, and no registry answered since the file was last lost
is newer (`Anchored`). An adoption replaces the file first and writes the marker second: cut in between, the file stands without
its marker.
-/

namespace StayConnect.Assignment
open Transition Tx

variable {c : Crypto} {applianceID : String} {s : Appliance c} {d d' : Disk c}

/-- After a signed registry the plain file is not answered, and while the registry file is not lost its version does not fall. -/
def Kept (a b : Answer) : Prop :=
  (a.source = .signed → b.source ≠ .legacyPlain) ∧
    (a.losses = b.losses → ∀ v ∈ a.version, ∀ w ∈ b.version, v ≤ w)

instance : DecidableRel Kept := fun _ _ => inferInstanceAs (Decidable (_ ∧ _))

def Replacement.isRegistry : Replacement → Bool
  | .registry _ => true
  | _ => false

/-- The condition: where the registry file is replaced, the marker is there at the end. -/
def Act.Marked (s : Appliance c) (a : Act) : Prop :=
  (a.made s.disk).any (·.isRegistry) → (s.disk.replaceAll (a.made s.disk)).adopted = true

def Genuine (root : c.Pub) (sr : SignedRegistry) : Prop := sr.signerKeyID = c.keyID root ∧ c.registrySigned root sr = true

variable {root : c.Pub} {sr : SignedRegistry} {now : Int} {crash : Option Nat}

lemma verifyRegistry_genuine {u} (h : verifyRegistry c root sr now = .ok u) : Genuine root sr := by
  simp only [verifyRegistry, ok_bind_iff, refuse_ok] at h
  obtain ⟨_, signer, _, signature, -⟩ := h
  exact ⟨by simpa using signer, by simpa using signature⟩

structure Anchored (s : Appliance c) : Prop where
  marked : s.disk.registry ≠ none → s.disk.adopted = true
  signed : ∀ a ∈ s.answers, a.source = .signed → s.disk.adopted = true
  genuine : ∀ root rec, s.disk.root = some root → s.disk.loadRegistry = some rec → Genuine root rec.current
  past : ∀ a ∈ s.answers, a.losses ≤ s.losses
  newest : ∀ a ∈ s.answers, a.losses = s.losses → ∀ v ∈ a.version,
    ∃ rec, s.disk.loadRegistry = some rec ∧ v ≤ rec.current.registryVersion
  ordered : s.answers.Pairwise Kept

lemma Anchored.new (root : Option c.Pub) (trust : Option Registry) : Anchored (.new root trust : Appliance c) where
  marked h := absurd rfl h
  signed := nofun
  genuine _ _ _ h := nomatch h
  past := nofun
  newest := nofun
  ordered := .nil

lemma Anchored.trusted (h : Anchored s) (hroot : s.disk.root = some root)
    (trusted : s.disk.trusted root now = some sr) : ∃ rec, s.disk.loadRegistry = some rec ∧ sr = rec.current := by
  unfold Disk.trusted at trusted
  cases load : s.disk.loadRegistry with
  | none => rw [load] at trusted; cases trusted
  | some rec =>
    obtain ⟨signer, signature⟩ := h.genuine root rec hroot load
    rw [load] at trusted
    simp only [verifyAdopted, signer, signature, ne_eq, not_true_eq_false, if_false, Bool.not_true, Bool.false_eq_true] at trusted
    split at trusted
    case h_1 =>
      cases trusted
      exact ⟨rec, rfl, rfl⟩
    case h_2 => cases trusted
    case h_3 heq =>
      split at heq <;> cases heq

lemma Anchored.answer (h : Anchored s) {reg source version} (answer : s.disk.trustedRegistry now = (reg, source, version)) :
    (source = .signed → s.disk.registry ≠ none) ∧ (source = .legacyPlain → s.disk.adopted = false) ∧
      ∀ v ∈ version, ∃ rec, s.disk.loadRegistry = some rec ∧ v = rec.current.registryVersion := by
  unfold Disk.trustedRegistry at answer
  cases signed : s.disk.root.bind fun root => s.disk.trusted root now with
  | some sr =>
    rw [signed] at answer
    cases answer
    obtain ⟨root, hroot, trusted⟩ := Option.bind_eq_some_iff.mp signed
    obtain ⟨rec, load, rfl⟩ := h.trusted hroot trusted
    refine ⟨fun _ none => ?_, nofun, fun v hv => ⟨rec, load, (Option.some.inj hv).symm⟩⟩
    rw [Disk.loadRegistry, none] at load
    cases load
  | none =>
    rw [signed] at answer
    simp only at answer
    split at answer
    · cases answer
      exact ⟨nofun, nofun, nofun⟩
    split at answer
    · cases answer
      exact ⟨nofun, nofun, nofun⟩
    next unmarked =>
      split at answer <;> cases answer
      · exact ⟨nofun, fun _ => by simpa using unmarked, nofun⟩
      · exact ⟨nofun, nofun, nofun⟩

lemma Anchored.answered (h : Anchored s) (now : Int) : Anchored (s.step applianceID (.trustedRegistry now)) := by
  obtain ⟨signed, plain, version⟩ := h.answer (rfl : s.disk.trustedRegistry now = _)
  refine ⟨h.marked, fun a ha hs => ?_, h.genuine, fun a ha => ?_, fun a ha same v hv => ?_,
    List.pairwise_append.mpr ⟨h.ordered, List.pairwise_singleton _ _, fun a ha b hb => ?_⟩⟩
  · rcases List.mem_append.mp ha with old | new
    · exact h.signed a old hs
    · cases List.mem_singleton.mp new
      exact h.marked (signed hs)
  · rcases List.mem_append.mp ha with old | new
    · exact h.past a old
    · cases List.mem_singleton.mp new
      exact Nat.le_refl _
  · rcases List.mem_append.mp ha with old | new
    · exact h.newest a old same v hv
    · cases List.mem_singleton.mp new
      obtain ⟨rec, load, rfl⟩ := version v hv
      exact ⟨rec, load, Int.le_refl _⟩
  · cases List.mem_singleton.mp hb
    refine ⟨fun hs legacy => ?_, fun same v hv w hw => ?_⟩
    · exact Bool.false_ne_true ((plain legacy).symm.trans (h.signed a ha hs))
    · obtain ⟨rec, load, le⟩ := h.newest a ha same v hv
      obtain ⟨rec', load', rfl⟩ := version w hw
      cases load.symm.trans load'
      exact le

lemma adoptRegistry_cases (d : Disk c) (sr : SignedRegistry) (now : Int) :
    d.adoptRegistry sr now = [] ∨ ∃ root rec, d.root = some root ∧ rec.current = sr ∧ Genuine root sr ∧
      (∀ old, d.loadRegistry = some old → old.current.registryVersion < sr.registryVersion) ∧
      d.adoptRegistry sr now = .registry rec :: if d.adopted then [] else [.adopted] := by
  cases hroot : d.root with
  | none => exact .inl (by simp only [Disk.adoptRegistry, hroot])
  | some root =>
    cases checked : d.checkRegistry root sr now with
    | error e => exact .inl (by simp only [Disk.adoptRegistry, hroot, checked])
    | ok noop =>
      cases noop with
      | true => exact .inl (by simp only [Disk.adoptRegistry, hroot, checked])
      | false =>
        have writes : d.adoptRegistry sr now = .registry ⟨sr, d.loadRegistry.map (·.current), now⟩ :: if d.adopted then [] else [.adopted] := by
          simp only [Disk.adoptRegistry, hroot, checked]
        simp only [Disk.checkRegistry, ok_bind_iff] at checked
        obtain ⟨_, verified, newer⟩ := checked
        refine .inr ⟨root, _, rfl, rfl, verifyRegistry_genuine verified, fun old load => ?_, writes⟩
        rw [load] at newer
        simp only [ok_bind_iff, refuse_ok] at newer
        obtain ⟨_, higher, newer⟩ := newer
        split at newer
        · simp only [ok_bind_iff] at newer
          obtain ⟨_, -, ⟨⟩⟩ := newer
        next differs =>
          have le : ¬ sr.registryVersion < old.current.registryVersion := by simpa using higher
          exact Int.lt_iff_le_and_ne.mpr ⟨Int.not_lt.mp le, Ne.symm differs⟩

lemma Anchored.place (h : Anchored s) {rec disk} (hroot : s.disk.root = some root) (genuine : Genuine root rec.current)
    (newer : ∀ old, s.disk.loadRegistry = some old → old.current.registryVersion < rec.current.registryVersion)
    (registry : disk.registry = some (.record rec)) (adopted : disk.adopted = true) (root' : disk.root = s.disk.root) :
    Anchored { s with disk } := by
  have load : disk.loadRegistry = some rec := by rw [Disk.loadRegistry, registry]
  refine ⟨fun _ => adopted, fun _ _ _ => adopted, fun r rec' hr hl => ?_, h.past, fun a ha same v hv => ?_, h.ordered⟩
  · cases load.symm.trans hl
    cases hroot.symm.trans (root'.symm.trans hr)
    exact genuine
  · obtain ⟨old, hold, le⟩ := h.newest a ha same v hv
    exact ⟨rec, load, Int.le_trans le (Int.le_of_lt (newer old hold))⟩

lemma Anchored.adopt (h : Anchored s)
    (marked : (Act.adoptRegistry sr now crash).Marked s) : Anchored (s.step applianceID (.adoptRegistry sr now crash)) := by
  unfold Act.Marked at marked
  change Anchored { s with disk := s.disk.replaceAll ((Act.adoptRegistry sr now crash).made s.disk) }
  have made : (Act.adoptRegistry sr now crash).made s.disk = cut (s.disk.adoptRegistry sr now) crash := rfl
  rcases adoptRegistry_cases s.disk sr now with nothing | ⟨root, rec, hroot, rfl, genuine, newer, writes⟩
  · have : (Act.adoptRegistry sr now crash).made s.disk = [] := by
      rw [made, nothing]
      cases crash <;> simp [cut]
    rw [this]
    exact h
  -- either nothing is written, or the file is in place and the marker with it
  have parts : (Act.adoptRegistry rec.current now crash).made s.disk = [] ∨
      ∃ rest, (Act.adoptRegistry rec.current now crash).made s.disk = .registry rec :: rest ∧ (rest = [] ∨ rest = [.adopted]) := by
    rw [made, writes]
    match crash with
    | none => exact .inr ⟨_, rfl, by split <;> simp⟩
    | some 0 => exact .inl rfl
    | some (k + 1) => exact .inr ⟨_, rfl, by split <;> cases k <;> simp⟩
  rcases parts with nothing | ⟨rest, written, short⟩
  · rw [nothing]
    exact h
  have adopted := marked (by rw [written]; rfl)
  rw [written] at adopted ⊢
  refine h.place hroot genuine newer ?_ adopted ?_
  · rcases short with rfl | rfl <;> rfl
  · rcases short with rfl | rfl <;> rfl

/-- The files of the registry are left alone; the root key may be lost. -/
structure Aside (d d' : Disk c) : Prop where
  registry : d'.registry = d.registry
  adopted : d'.adopted = d.adopted
  root : ∀ root, d'.root = some root → d.root = some root

lemma Anchored.aside (h : Anchored s) {disk} (aside : Aside s.disk disk) {newest granted} :
    Anchored { s with disk, newest, granted } := by
  have load : disk.loadRegistry = s.disk.loadRegistry := by rw [Disk.loadRegistry, Disk.loadRegistry, aside.registry]
  refine ⟨fun present => ?_, fun a ha hs => ?_, fun root rec hroot hl => ?_, h.past, fun a ha same v hv => ?_, h.ordered⟩
  · exact aside.adopted.trans (h.marked (aside.registry ▸ present))
  · exact aside.adopted.trans (h.signed a ha hs)
  · exact h.genuine root rec (aside.root root hroot) (load ▸ hl)
  · obtain ⟨rec, hl, le⟩ := h.newest a ha same v hv
    exact ⟨rec, load.trans hl, le⟩

lemma Aside.replaceAll {rs} (h : ∀ r ∈ rs, r.isRegistry = false ∧ r ≠ .adopted) : Aside d (d.replaceAll rs) := by
  induction rs generalizing d with
  | nil => exact ⟨rfl, rfl, fun _ => id⟩
  | cons r rs ih =>
    have rest := ih (d := d.replace r) fun r' hr' => h r' (List.mem_cons_of_mem _ hr')
    obtain ⟨notRegistry, notAdopted⟩ := h r List.mem_cons_self
    have here : Aside d (d.replace r) := by
      cases r with
      | registry => cases notRegistry
      | adopted => exact absurd rfl notAdopted
      | assignment | highest => exact ⟨rfl, rfl, fun _ => id⟩
    exact ⟨rest.registry.trans here.registry, rest.adopted.trans here.adopted, fun root hr => here.root root (rest.root root hr)⟩

lemma mem_of_cut {rs r} (h : r ∈ cut rs crash) : r ∈ rs := by
  cases crash with
  | none => exact h
  | some k => exact List.mem_of_mem_take h

lemma adopt_aside {doc} : Aside d (d.replaceAll ((Act.adopt doc now crash).made d)) := by
  refine .replaceAll fun r hr => ?_
  have mem := mem_of_cut hr
  simp only [Disk.adopt, List.mem_cons] at mem
  rcases mem with rfl | rest
  · exact ⟨rfl, nofun⟩
  split at rest
  · cases List.mem_singleton.mp rest
    exact ⟨rfl, nofun⟩
  · cases rest

lemma noteRefresh_aside {ok} : Aside d (d.replaceAll ((Act.noteRefresh ok now crash).made d)) := by
  refine .replaceAll fun r hr => ?_
  have mem := mem_of_cut hr
  unfold Disk.noteRefresh at mem
  split at mem
  · cases mem
  · cases List.mem_singleton.mp mem
    exact ⟨rfl, nofun⟩

lemma Anchored.step (h : Anchored s) {a} (marked : a.Marked s) : Anchored (s.step applianceID a) := by
  cases a with
  | adoptRegistry sr now crash => exact h.adopt marked
  | trustedRegistry now => exact h.answered now
  | loseRegistry =>
    -- what was answered before belongs to a file that is gone
    refine ⟨fun present => absurd rfl present, h.signed, fun _ _ _ load => (nomatch load), fun a ha => ?_, fun a ha same => ?_, h.ordered⟩
    · exact Nat.le_succ_of_le (h.past a ha)
    · exact absurd (same ▸ h.past a ha) (Nat.not_succ_le_self _)
  | loseRoot =>
    have lost : Aside s.disk { s.disk with root := none } := ⟨rfl, rfl, fun _ h => nomatch h⟩
    exact h.aside lost
  | trust reg =>
    have same : Aside s.disk { s.disk with trust := reg } := ⟨rfl, rfl, fun _ => id⟩
    exact h.aside same
  | adopt doc now crash => exact h.aside adopt_aside
  | noteRefresh ok now crash => exact h.aside noteRefresh_aside
  | restore file =>
    have same : Aside s.disk { s.disk with assignment := some file } := ⟨rfl, rfl, fun _ => id⟩
    exact h.aside same
  | resolve serial fpr now =>
    simp only [Appliance.step]
    split
    · exact h.aside ⟨rfl, rfl, fun _ => id⟩
    · exact h

/-- In every run of a clean appliance in which no adoption is cut between the registry file and its marker, the plain trust file
is not answered after a signed registry, and the version answered does not fall while the registry file is not lost. -/
theorem trust_never_downgraded {root : Option c.Pub} {trust : Option Registry} {acts : List Act}
    (run : Run (fun s a t => a.Marked s ∧ t = s.step applianceID a) (.new root trust) acts s) : s.answers.Pairwise Kept := by
  have anchored : Anchored s := by
    refine run.invariant (P := Anchored) ?_ (Anchored.new root trust)
    rintro s a t ⟨marked, rfl⟩ h
    exact h.step marked
  exact anchored.ordered

/-- One root key; the signature of a registry is the name of its signer. -/
def oneRoot : Crypto where
  Pub := Unit
  keyID _ := "root"
  publicKeyOf _ := some ()
  registrySigned _ sr := sr.signature = sr.signerKeyID
  documentSigned _ d := d.signature = d.signerKeyID

def registryOf (version : Int) : SignedRegistry := ⟨version, 0, 0, 0, [⟨"k", "", .active, ""⟩], "root", "root"⟩

def plainTrust : Registry := ⟨[⟨"rogue", "", .active, ""⟩]⟩

instance (s : Appliance c) (a : Act) : Decidable (a.Marked s) := inferInstanceAs (Decidable (_ → _))

/-- Two registries are adopted, the second after it was cut before it was in place; then the registry file and the root key
are lost. -/
def adoptions : List Act :=
  [.trustedRegistry 1, .adoptRegistry (registryOf 1) 2 none, .trustedRegistry 3, .adoptRegistry (registryOf 2) 4 (some 0),
    .adoptRegistry (registryOf 2) 5 none, .trustedRegistry 6, .loseRegistry, .trustedRegistry 7, .loseRoot, .trustedRegistry 8]

theorem adoptions_kept : ∃ s : Appliance oneRoot,
    Run (fun s a t => a.Marked s ∧ t = s.step "a" a) (.new (some ()) (some plainTrust)) adoptions s ∧
      s.answers.map (·.source) = [.legacyPlain, .signed, .signed, .none, .none] ∧ s.answers.Pairwise Kept := by
  obtain ⟨s, run, check⟩ := exists_guarded (f := Appliance.step "a") (G := fun s a => a.Marked s)
    (s := (.new (some ()) (some plainTrust) : Appliance oneRoot)) (l := adoptions)
    (P := fun s => s.answers.map (·.source) = [.legacyPlain, .signed, .signed, .none, .none]) (by decide +kernel)
  exact ⟨s, run, of_decide_eq_true check, trust_never_downgraded run⟩

/-- The adoption is cut before the marker, and the registry offered again is already held; then the registry file is lost. -/
def downgraded : Appliance oneRoot :=
  ([.adoptRegistry (registryOf 1) 1 (some 1), .adoptRegistry (registryOf 1) 2 none, .trustedRegistry 3, .loseRegistry,
    .trustedRegistry 4] : List Act).foldl (Appliance.step "a") (.new (some ()) (some plainTrust))

theorem unmarked_registry_is_downgraded :
    downgraded.answers.map (·.source) = [.signed, .legacyPlain] ∧ ¬ downgraded.answers.Pairwise Kept := by
  decide +kernel

end StayConnect.Assignment
