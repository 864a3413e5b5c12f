import StayConnect.Transition

/-!
# Transactions that interleave

Processes run statements against a common database. The writes of a process are its own until it commits,
a statement sees what is committed with the writes of its process on top, and it waits for the locks it takes;
locks are kept to the end of the transaction, and some, the locks of a session, past it. Calls out of the database take effect at once, whatever becomes of
the transaction. A process may crash between any two statements.

An invariant of all interleavings is proved process by process (`Invariant.run`): each process keeps a local
assertion, the commits and calls of the others leave it, and two processes never hold one lock. A run may be
restricted, to requests of some kind and to steps taken where a condition holds (`Guarded`).
-/

namespace StayConnect.Interleave
open Transition

/-- What a process does next. -/
inductive Act (σ κ ω τ : Type*) where
  | statement (locks : List κ) (write : σ → σ) (next : τ)
  | commit (kept : List κ) (next : τ)
  | rollback (next : τ)
  | call (effect : ω → ω) (next : τ)
  | stop

/-- A process: where it stands, the writes of its open transaction and the locks it holds. -/
structure Process (σ κ τ : Type*) where
  here : τ
  writes : σ → σ
  held : List κ

/-- What the processes run: where a request starts, and what happens next for what the process sees. -/
structure Protocol (σ κ ω ι τ : Type*) where
  init : ι → τ
  act : τ → σ → ω → Act σ κ ω τ

structure System (σ κ ω τ : Type*) where
  db : σ
  world : ω
  processes : List (Option (Process σ κ τ))

/-- A request arrives, a process takes its next step, or it crashes. -/
inductive Label (ι : Type*) where
  | start (r : ι)
  | step (i : Nat)
  | crash (i : Nat)

variable {σ κ ω ι τ : Type*}

def Process.fresh (t : τ) : Process σ κ τ := ⟨t, id, []⟩

def Process.view (p : Process σ κ τ) (db : σ) : σ := p.writes db

/-- A statement of a process. -/
def Process.extend (p : Process σ κ τ) (locks : List κ) (write : σ → σ) (next : τ) : Process σ κ τ :=
  ⟨next, write ∘ p.writes, p.held ++ locks⟩

/-- The end of a transaction: of its locks only those that are kept stay. -/
def Process.commit [DecidableEq κ] (p : Process σ κ τ) (kept : List κ) (next : τ) : Process σ κ τ :=
  ⟨next, id, p.held.filter (kept.contains ·)⟩

def Process.moved (p : Process σ κ τ) (next : τ) : Process σ κ τ := { p with here := next }

namespace System

variable (s : System σ κ ω τ)

def put (i : Nat) (p : Option (Process σ κ τ)) : System σ κ ω τ := { s with processes := s.processes.set i p }

variable [DecidableEq κ]

/-- No process but the one of the slot holds any of the locks. -/
def free (i : Nat) (locks : List κ) : Bool :=
  (s.processes.set i none).all fun q => q.all fun q => locks.all fun k => !q.held.contains k

def run (act : τ → σ → ω → Act σ κ ω τ) (i : Nat) (p : Process σ κ τ) : Option (System σ κ ω τ) :=
  match act p.here (p.view s.db) s.world with
  | .statement locks write next => if s.free i locks then some (s.put i (some (p.extend locks write next))) else none
  | .commit kept next => some { s.put i (some (p.commit kept next)) with db := p.view s.db }
  | .rollback next => some (s.put i (some (.fresh next)))
  | .call effect next => some { s.put i (some (p.moved next)) with world := effect s.world }
  | .stop => some (s.put i none)

end System

def Protocol.step [DecidableEq κ] (P : Protocol σ κ ω ι τ) (s : System σ κ ω τ) : Label ι → Option (System σ κ ω τ)
  | .start r => some { s with processes := s.processes ++ [some (.fresh (P.init r))] }
  | .step i => (s.processes[i]?.join).bind (s.run P.act i)
  | .crash i => some (s.put i none)

/-- Steps that start only requests with `A` and move a process only where `G` holds. -/
def Guarded [DecidableEq κ] (P : Protocol σ κ ω ι τ) (A : ι → Prop) (G : Process σ κ τ → σ → ω → Prop)
    (s : System σ κ ω τ) (l : Label ι) (s' : System σ κ ω τ) : Prop :=
  P.step s l = some s' ∧ (∀ r, l = .start r → A r) ∧
    ∀ i p, l = .step i → s.processes[i]? = some (some p) → G p s.db s.world

/-- Steps under no condition. -/
abbrev Anytime : Process σ κ τ → σ → ω → Prop := fun _ _ _ => True

/-- An invariant of the database and the world, with an assertion each process keeps. -/
structure Invariant [DecidableEq κ] (P : Protocol σ κ ω ι τ) (A : ι → Prop) (G : Process σ κ τ → σ → ω → Prop) (I : σ → ω → Prop)
    (L : Process σ κ τ → σ → ω → Prop) : Prop where
  start {db w} (r : ι) : A r → I db w → L (.fresh (P.init r)) db w
  statement {db w p locks write next} : I db w → L p db w → G p db w →
    P.act p.here (p.view db) w = .statement locks write next → L (p.extend locks write next) db w
  commit {db w p kept next} : I db w → L p db w → G p db w → P.act p.here (p.view db) w = .commit kept next →
    I (p.view db) w ∧ L (p.commit kept next) (p.view db) w
  commit_other {db w p kept next q} : I db w → L p db w → G p db w → P.act p.here (p.view db) w = .commit kept next →
    L q db w → (∀ k ∈ p.held, k ∉ q.held) → L q (p.view db) w
  rollback {db w p next} : I db w → L p db w → G p db w → P.act p.here (p.view db) w = .rollback next →
    L (.fresh next) db w
  call {db w p effect next} : I db w → L p db w → G p db w → P.act p.here (p.view db) w = .call effect next →
    I db (effect w) ∧ L (p.moved next) db (effect w)
  call_other {db w p effect next q} : I db w → L p db w → G p db w → P.act p.here (p.view db) w = .call effect next →
    L q db w → (∀ k ∈ p.held, k ∉ q.held) → L q db (effect w)

/-- The invariant holds, every process keeps its assertion, and no lock is held twice. -/
structure Sound (I : σ → ω → Prop) (L : Process σ κ τ → σ → ω → Prop) (s : System σ κ ω τ) : Prop where
  holds : I s.db s.world
  each : ∀ {i : Nat} {p : Process σ κ τ}, s.processes[i]? = some (some p) → L p s.db s.world
  apart : ∀ {i j : Nat} {p q : Process σ κ τ}, i ≠ j → s.processes[i]? = some (some p) →
    s.processes[j]? = some (some q) → ∀ k ∈ p.held, k ∉ q.held

section
variable {I : σ → ω → Prop} {L : Process σ κ τ → σ → ω → Prop} {P : Protocol σ κ ω ι τ} {s' : System σ κ ω τ} {label : Label ι}
  {A : ι → Prop} {G : Process σ κ τ → σ → ω → Prop} {s : System σ κ ω τ} {i : Nat} {p : Process σ κ τ}

/-- The slot `i` holds a process; another slot is what it was. -/
lemma System.put_slot {j x q} (h : (s.put i x).processes[j]? = some (some q)) :
    (j = i ∧ x = some q) ∨ (j ≠ i ∧ s.processes[j]? = some (some q)) := by
  unfold System.put at h
  by_cases hit : j = i
  · subst hit
    rw [List.getElem?_set_self'] at h
    obtain ⟨_, _, e⟩ := Option.map_eq_some_iff.mp h
    exact .inl ⟨rfl, e⟩
  · rw [List.getElem?_set_ne (Ne.symm hit)] at h
    exact .inr ⟨hit, h⟩

/-- A step that replaces one process: what it keeps, and what the others keep. -/
lemma Sound.put (sound : Sound I L s) (slot : s.processes[i]? = some (some p)) {x db w}
    (holds : I db w) (own : ∀ q, x = some q → L q db w) (others : ∀ q, L q s.db s.world → (∀ k ∈ p.held, k ∉ q.held) → L q db w)
    (locks : ∀ y j q, x = some y → j ≠ i → s.processes[j]? = some (some q) → ∀ k ∈ y.held, k ∉ q.held) :
    Sound I L ⟨db, w, (s.put i x).processes⟩ where
  holds := holds
  each h := by
    rcases System.put_slot h with ⟨-, e⟩ | ⟨ne, h⟩
    · exact own _ e
    · exact others _ (sound.each h) (sound.apart (Ne.symm ne) slot h)
  apart ne h h' := by
    rcases System.put_slot h with ⟨rfl, e⟩ | ⟨ne₁, slot₁⟩
    · rcases System.put_slot h' with ⟨rfl, -⟩ | ⟨ne₂, slot₂⟩
      · exact absurd rfl ne
      · exact locks _ _ _ e ne₂ slot₂
    · rcases System.put_slot h' with ⟨rfl, e⟩ | ⟨-, slot₂⟩
      · exact fun k hk hk' => locks _ _ _ e ne₁ slot₁ k hk' hk
      · exact sound.apart ne slot₁ slot₂

lemma Sound.crash (sound : Sound I L s) : Sound I L (s.put i none) := by
  refine ⟨sound.holds, fun h => ?_, fun ne h h' => ?_⟩
  · rcases System.put_slot h with ⟨-, e⟩ | ⟨-, h⟩
    · cases e
    · exact sound.each h
  · rcases System.put_slot h with ⟨-, e⟩ | ⟨-, h⟩
    · cases e
    · rcases System.put_slot h' with ⟨-, e⟩ | ⟨-, h'⟩
      · cases e
      · exact sound.apart ne h h'

def idle (db : σ) (w : ω) : System σ κ ω τ := ⟨db, w, []⟩

lemma sound_idle {db w} (h : I db w) : Sound I L (idle db w) where
  holds := h
  each slot := by cases slot
  apart _ slot := by cases slot

variable [DecidableEq κ]

lemma System.free_spec {locks} (h : s.free i locks = true) {j q} (ne : j ≠ i)
    (slot : s.processes[j]? = some (some q)) : ∀ k ∈ locks, k ∉ q.held := by
  intro k hk held
  have mem : some q ∈ s.processes.set i none := by
    refine List.mem_of_getElem? (i := j) ?_
    rw [List.getElem?_set_ne (Ne.symm ne), slot]
  have all := List.all_eq_true.mp h _ mem
  simp only [Option.all_some, List.all_eq_true] at all
  have absent := all k hk
  simp [held] at absent

lemma Invariant.start_process (inv : Invariant P A G I L) (sound : Sound I L s) (r : ι) (allowed : A r) :
    Sound I L { s with processes := s.processes ++ [some (.fresh (P.init r))] } := by
  have last {j : Nat} {q : Process σ κ τ} (h : (s.processes ++ [some (.fresh (P.init r))])[j]? = some (some q)) :
      s.processes[j]? = some (some q) ∨ (j = s.processes.length ∧ q = .fresh (P.init r)) := by
    rcases Nat.lt_trichotomy j s.processes.length with lt | rfl | gt
    · rw [List.getElem?_append_left lt] at h
      exact .inl h
    · rw [List.getElem?_concat_length] at h
      exact .inr ⟨rfl, (Option.some.inj (Option.some.inj h)).symm⟩
    · rw [List.getElem?_eq_none (by simp; omega)] at h
      cases h
  refine ⟨sound.holds, fun h => ?_, fun ne h h' k hk held => ?_⟩
  · rcases last h with h | ⟨-, rfl⟩
    · exact sound.each h
    · exact inv.start r allowed sound.holds
  · rcases last h with h | ⟨-, rfl⟩
    · rcases last h' with h' | ⟨-, rfl⟩
      · exact sound.apart ne h h' k hk held
      · cases held
    · cases hk

lemma Invariant.run_process (inv : Invariant P A G I L) (sound : Sound I L s) (slot : s.processes[i]? = some (some p))
    (guard : G p s.db s.world) (step : s.run P.act i p = some s') : Sound I L s' := by
  have keeps := sound.each slot
  have apart : ∀ j q, j ≠ i → s.processes[j]? = some (some q) → ∀ k ∈ p.held, k ∉ q.held :=
    fun j q ne h => sound.apart (Ne.symm ne) slot h
  unfold System.run at step
  split at step
  case h_1 locks write next act =>
    split at step
    case isTrue free =>
      cases step
      refine sound.put slot sound.holds ?_ (fun q h _ => h) ?_
      · rintro q ⟨⟩
        exact inv.statement sound.holds keeps guard act
      · rintro y j q ⟨⟩ ne h k hk
        rcases List.mem_append.mp hk with old | new
        · exact apart j q ne h k old
        · exact System.free_spec free ne h k new
    case isFalse => cases step
  case h_2 kept next act =>
    cases step
    obtain ⟨holds, own⟩ := inv.commit sound.holds keeps guard act
    refine sound.put slot holds ?_ (fun q h disjoint => inv.commit_other sound.holds keeps guard act h disjoint) ?_
    · rintro q ⟨⟩
      exact own
    · rintro y j q ⟨⟩ ne h k hk
      exact apart j q ne h k (List.mem_filter.mp hk).1
  case h_3 next act =>
    cases step
    refine sound.put slot sound.holds ?_ (fun q h _ => h) ?_
    · rintro q ⟨⟩
      exact inv.rollback sound.holds keeps guard act
    · rintro y j q ⟨⟩ _ _ k hk
      cases hk
  case h_4 effect next act =>
    cases step
    obtain ⟨holds, own⟩ := inv.call sound.holds keeps guard act
    refine sound.put slot holds ?_ (fun q h disjoint => inv.call_other sound.holds keeps guard act h disjoint) ?_
    · rintro q ⟨⟩
      exact own
    · rintro y j q ⟨⟩ ne h
      exact apart j q ne h
  case h_5 =>
    cases step
    exact sound.put slot sound.holds (fun q h => nomatch h) (fun q h _ => h) (fun y j q h => nomatch h)

lemma Invariant.step (inv : Invariant P A G I L) (step : Guarded P A G s label s') (sound : Sound I L s) : Sound I L s' := by
  obtain ⟨step, starts, guard⟩ := step
  cases label with
  | start r =>
    cases step
    exact inv.start_process sound r (starts r rfl)
  | step i =>
    obtain ⟨p, slot, ran⟩ := Option.bind_eq_some_iff.mp step
    have slot := Option.join_eq_some_iff.mp slot
    exact inv.run_process sound slot (guard i p rfl slot) ran
  | crash i =>
    cases step
    exact sound.crash

/-- What holds at the start holds after every interleaving. -/
lemma Invariant.run (inv : Invariant P A G I L) {labels} (run : Run (Guarded P A G) s labels s') (sound : Sound I L s) : Sound I L s' :=
  run.invariant (fun step h => inv.step step h) sound

lemma guarded_of_step (step : P.step s label = some s') : Guarded P (fun _ => True) Anytime s label s' :=
  ⟨step, fun _ _ => trivial, fun _ _ _ _ => trivial⟩

/-- The step of a system under conditions that are checked. -/
def Protocol.stepIf (P : Protocol σ κ ω ι τ) (A : ι → Bool) (G : Process σ κ τ → σ → ω → Bool) (s : System σ κ ω τ)
    (l : Label ι) : Option (System σ κ ω τ) :=
  let allowed := match l with
    | .start r => A r
    | .step i => (s.processes[i]?.join).all fun p => G p s.db s.world
    | .crash _ => true
  if allowed then P.step s l else none

lemma guarded_of_stepIf {A G} (step : P.stepIf A G s label = some s') : Guarded P (A · = true) (G · · · = true) s label s' := by
  unfold Protocol.stepIf at step
  cases label with
  | start r =>
    simp only [Option.ite_none_right_eq_some] at step
    exact ⟨step.2, fun _ h => Label.start.inj h ▸ step.1, fun _ _ h => (nomatch h)⟩
  | step i =>
    simp only [Option.ite_none_right_eq_some] at step
    refine ⟨step.2, fun _ h => (nomatch h), fun j p h slot => ?_⟩
    cases h
    simpa [slot] using step.1
  | crash i =>
    simp only [if_true] at step
    exact ⟨step, fun _ h => (nomatch h), fun _ _ h => (nomatch h)⟩

/-- Only a commit changes the database. -/
lemma Protocol.step_db (step : P.step s label = some s') :
    s'.db = s.db ∨ ∃ i p kept next, label = .step i ∧ s.processes[i]? = some (some p) ∧
      P.act p.here (p.view s.db) s.world = .commit kept next ∧ s'.db = p.view s.db := by
  cases label with
  | start r | crash i =>
    cases step
    exact .inl rfl
  | step i =>
    obtain ⟨p, slot, ran⟩ := Option.bind_eq_some_iff.mp step
    unfold System.run at ran
    split at ran
    case h_1 =>
      split at ran
      · cases ran
        exact .inl rfl
      · cases ran
    case h_2 kept next act =>
      cases ran
      exact .inr ⟨i, p, kept, next, rfl, Option.join_eq_some_iff.mp slot, act, rfl⟩
    all_goals
      cases ran
      exact .inl rfl

end

end StayConnect.Interleave
