import StayConnect.Counter
import StayConnect.Iam.Moves

/-!
# Bytes are counted exactly once

A session's counters are read through class origins and absolute observations, which may be replayed, late,
repeated or for a new epoch. `CounterStep` reduces an operation to what it does to the counters: nothing, the
first reading of an epoch, or a reading that grew. `Tallied` relates the tables to the readings accepted so
far; every operation keeps it, so the bytes recorded are the growth of the accepted readings, epoch by epoch.
-/

namespace StayConnect.Iam
open Keyed Counter Tx Relation

/-- The reading an operation accepts: the one that opens an epoch, or one that grew. -/
def AcctOp.accepted (db : Db) : AcctOp → Option Reading
  | .register o =>
    match (registerClassOrigin o).run db with
    | .ok (.originRegistered, _) => o.reading
    | .ok (.originReset, _) => o.reading
    | _ => none
  | .ingest o =>
    match (ingestAbsoluteCounters o).run db with
    | .ok (.baselined, _) => o.reading
    | .ok (.resetBaselined, _) => o.reading
    | .ok (.accepted, _) => o.reading
    | .ok (.delayed, _) => o.reading
    | _ => none
  | _ => none

def newSamples (db db' : Db) : List Sample := db'.samples.filter fun r => !decide (r ∈ db.samples)

/-- The two directions are counted separately. -/
inductive Way where
  | up
  | down

def Reading.counter (r : Reading) : Way → Nat
  | .up => r.up
  | .down => r.down

def Checkpoint.counter (c : Checkpoint) : Way → Nat
  | .up => c.prevBytesUp
  | .down => c.prevBytesDown

def Sample.counted (r : Sample) : Way → Nat
  | .up => r.bytesUp
  | .down => r.bytesDown

def Session.counted (s : Session) : Way → Nat
  | .up => s.bytesUp
  | .down => s.bytesDown

/-- `sessions.bytes_up` or `sessions.bytes_down` of a session. -/
def Db.sessionBytes (db : Db) (w : Way) (session : Nat) : Nat :=
  (lookup Session.id session db.sessions).elim 0 (·.counted w)

/-- The counters are as they were; samples may have left the raw table. -/
structure CountersKept (db db' : Db) : Prop where
  checkpoints : db'.checkpoints = db.checkpoints
  samples : ∀ r ∈ db'.samples, r ∈ db.samples
  bytes : ∀ w session, db'.sessionBytes w session = db.sessionBytes w session

/-- What an operation does to the counters, with the reading it accepts. -/
inductive CounterStep (db : Db) : Option Reading → Db → Prop where
  | kept {db' : Db} : CountersKept db db' → CounterStep db none db'
  | baselined {r : Reading} {scope : Scope} {time : Int} : db.checkpoint r.series = none →
    CounterStep db (some r) (db.baseline scope r time)
  | rebased {r : Reading} {cp : Checkpoint} {time : Int} : db.checkpoint r.series = some cp →
    cp.sourceEpoch < r.epoch → CounterStep db (some r) (db.rebase r time)
  | grown {r : Reading} {scope : Scope} {s : Session} {cp : Checkpoint} {time : Int} {e : Nat} : s ∈ db.sessions →
    s.id = r.series.session → db.checkpoint r.series = some cp → cp.sourceEpoch = r.epoch →
    cp.prevBytesUp ≤ r.up → cp.prevBytesDown ≤ r.down → (∀ r' ∈ db.samples, r'.id ≠ db.uuid db.drawn) →
    CounterStep db (some r) (db.draw.recordDelta r.series (db.sampleOf scope r cp time) e r.up r.down)

namespace CountersKept

lemma refl (db : Db) : CountersKept db db := ⟨rfl, fun _ h => h, fun _ _ => rfl⟩

lemma trans {db db₁ db₂} (h : CountersKept db db₁) (k : CountersKept db₁ db₂) : CountersKept db db₂ where
  checkpoints := k.checkpoints.trans h.checkpoints
  samples := fun r hr => h.samples r (k.samples r hr)
  bytes := fun w s => (k.bytes w s).trans (h.bytes w s)

lemma sessions {db} {f : Session → Session} {g : Db → Db} {session : Nat}
    (cp : (g db).checkpoints = db.checkpoints) (raw : (g db).samples = db.samples)
    (rows : (g db).sessions = db.sessions.map fun s => if s.id = session then f s else s)
    (named : ∀ s, (f s).id = s.id) (same : ∀ s w, (f s).counted w = s.counted w) : CountersKept db (g db) := by
  refine ⟨cp, fun r hr => raw ▸ hr, ?_⟩
  intro w sid
  unfold Db.sessionBytes
  rw [rows, lookup_update named]
  cases lookup Session.id sid db.sessions with
  | none => rfl
  | some s =>
    split
    · exact same s w
    · rfl

end CountersKept

variable {op : AcctOp} {db db' : Db} {session : Nat} {r : Reading} {time : Int}

lemma AcctMove.countersKept (move : AcctMove op db db') (none : op.observation = none) : CountersKept db db' := by
  cases move with
  | baselined h | rebased h => rw [none] at h; cases h
  | grown h => subst h; cases none
  | opened _ new =>
    rename_i s _ _ _
    refine ⟨rfl, fun _ h => h, ?_⟩
    intro w sid
    simp only [Db.sessionBytes, Db.opened, Db.draw, lookup_append, lookup_singleton]
    cases h : lookup Session.id sid db.sessions with
    | some x => rfl
    | none => split <;> cases w <;> rfl
  | ended => exact .sessions (g := fun db => db.endSession _ _ _) rfl rfl rfl (fun _ => rfl) fun _ w => by cases w <;> rfl
  | relocated h =>
    subst h
    exact .sessions (g := fun db => AcctOp.apply db _) rfl rfl rfl (fun _ => rfl) fun _ w => by cases w <;> rfl
  | moved => exact .sessions (g := fun db => db.draw.moved _ _ _ _) rfl rfl rfl (fun _ => rfl) fun _ w => by cases w <;> rfl
  | gapCharged _ _ _ _ _ _ reconciled =>
    rcases reconcile_commits reconciled with ⟨b, -, -, rfl⟩ | ⟨rfl, -⟩
    all_goals exact ⟨rfl, fun _ h => h, fun _ _ => rfl⟩
  | folded => exact ⟨rfl, fun _ h => List.mem_of_mem_erase h, fun _ _ => rfl⟩
  | statusSet h | ticked h => subst h; exact ⟨rfl, fun _ h => h, fun _ _ => rfl⟩
  | rolledUp | hoursDropped | foldedDropped | examined | recounted | crossed => exact ⟨rfl, fun _ h => h, fun _ _ => rfl⟩

lemma apply_countersKept (none : op.observation = none) (db : Db) : CountersKept db (op.apply db) :=
  Prog.keep (S := CountersKept db) (fun move ih => ih.trans (move.countersKept none)) (apply_moves op db) (.refl db)

/-- A counter call that accepts no reading leaves the tables as they were. -/
lemma counterCall (counter : op.observation.isSome) (db : Db) : (op.accepted db = none ∧ op.apply db = db) ∨
    (op.accepted db).isSome ∧ CounterStep db (op.accepted db) (op.apply db) := by
  cases op with
  | register o =>
    simp only [AcctOp.accepted, AcctOp.apply, after]
    cases run : (registerClassOrigin o).run db with
    | error e => exact .inl ⟨rfl, rfl⟩
    | ok p =>
      obtain ⟨res, db'⟩ := p
      cases registerClassOrigin_cases run with
      | opened reading none => exact .inr (by rw [reading]; exact ⟨rfl, .baselined none⟩)
      | unchanged => exact .inl ⟨rfl, rfl⟩
      | reset reading found lt => exact .inr (by rw [reading]; exact ⟨rfl, .rebased found lt⟩)
  | ingest o =>
    simp only [AcctOp.accepted, AcctOp.apply, after]
    cases run : (ingestAbsoluteCounters o).run db with
    | error e => exact .inl ⟨rfl, rfl⟩
    | ok p =>
      obtain ⟨res, db'⟩ := p
      cases ingestAbsoluteCounters_cases run with
      | baselined reading none => exact .inr (by rw [reading]; exact ⟨rfl, .baselined none⟩)
      | reset reading found lt => exact .inr (by rw [reading]; exact ⟨rfl, .rebased found lt⟩)
      | replay | duplicate => exact .inl ⟨rfl, rfl⟩
      | @grown r s cp time e reading mem id _ found same up down _ fresh =>
        rw [reading]
        cases (db.frozenBy e time).isSome
        all_goals exact .inr ⟨rfl, .grown mem id found same up down fresh⟩
  | _ => cases counter

lemma counterStep (op : AcctOp) (db : Db) : CounterStep db (op.accepted db) (op.apply db) := by
  cases counter : op.observation with
  | none =>
    have silent : op.accepted db = none := by cases op <;> first | rfl | cases counter
    exact silent ▸ .kept (apply_countersKept counter db)
  | some o =>
    rcases counterCall (Option.isSome_of_eq_some counter) db with ⟨silent, same⟩ | ⟨-, step⟩
    · rw [silent, same]
      exact .kept (.refl db)
    · exact step

/-- The readings of one direction, as a stream of counters named by source and epoch. -/
def stream (w : Way) (acc : List Reading) : List ((Series × Int) × Nat) :=
  acc.map fun r => ((r.series, r.epoch), r.counter w)

/-- The checkpoint of a source stands at the last accepted reading of its newest epoch. -/
def Linked (acc : List Reading) (k : Series) : Option Checkpoint → Prop
  | none => ∀ r ∈ acc, r.series ≠ k
  | some c => (∀ r ∈ acc, r.series = k → r.epoch ≤ c.sourceEpoch) ∧
    ∀ w, lastOf (k, c.sourceEpoch) (stream w acc) = some (c.counter w)

/-- The checkpoints of a session remember every sequence number they did. -/
def Remembers (session : Nat) (db db' : Db) : Prop :=
  ∀ c ∈ db.checkpoints, c.session = session → ∃ c' ∈ db'.checkpoints, c'.session = session ∧ c.lastSampleSeq ≤ c'.lastSampleSeq

/-- The tables agree with the readings accepted and the samples recorded since `start`. -/
structure Tallied (session : Nat) (start db : Db) (acc : List Reading) (rec : List Sample) : Prop where
  linked : ∀ k : Series, k.session = session → Linked acc k (db.checkpoint k)
  forward : ∀ w, Forward (stream w acc)
  counted : ∀ w, total (·.counted w) rec = growth (stream w acc)
  credited : ∀ w, db.sessionBytes w session = start.sessionBytes w session + growth (stream w acc)
  ordered : rec.Pairwise (·.sampleSeq < ·.sampleSeq)
  remembered : ∀ r ∈ rec, ∃ c ∈ db.checkpoints, c.session = session ∧ r.sampleSeq ≤ c.lastSampleSeq

section
variable {acc : List Reading} {r : Reading} {k : Series}

lemma stream_snoc {w} : stream w (acc ++ [r]) = stream w acc ++ [((r.series, r.epoch), r.counter w)] := by
  unfold stream
  rw [List.map_append, List.map_singleton]

lemma notMem_stream {w} (new : ∀ r' ∈ acc, r'.series = r.series → r'.epoch < r.epoch) :
    (r.series, r.epoch) ∉ (stream w acc).map Prod.fst := by
  intro mem
  obtain ⟨p, hp, same⟩ := List.mem_map.mp mem
  obtain ⟨r', hr', rfl⟩ := List.mem_map.mp hp
  obtain ⟨hs, he⟩ := Prod.mk.inj same
  have := new r' hr' hs
  omega

lemma Linked.snoc_ne {c} (h : Linked acc k c) (ne : r.series ≠ k) : Linked (acc ++ [r]) k c := by
  cases c with
  | none =>
    intro r' hr'
    rcases List.mem_append.mp hr' with old | new
    · exact h r' old
    · rw [List.mem_singleton.mp new]
      exact ne
  | some c =>
    refine ⟨?_, fun w => ?_⟩
    · intro r' hr' hs
      rcases List.mem_append.mp hr' with old | new
      · exact h.1 r' old hs
      · exact absurd (List.mem_singleton.mp new ▸ hs) ne
    · rw [stream_snoc, lastOf_snoc_ne fun same => ne (Prod.mk.inj same).1.symm]
      exact h.2 w

lemma Linked.snoc {c} (le : ∀ r' ∈ acc, r'.series = r.series → r'.epoch ≤ r.epoch)
    (epoch : c.sourceEpoch = r.epoch) (counter : ∀ w, c.counter w = r.counter w) : Linked (acc ++ [r]) r.series (some c) := by
  refine ⟨?_, fun w => ?_⟩
  · intro r' hr' hs
    rw [epoch]
    rcases List.mem_append.mp hr' with old | new
    · exact le r' old hs
    · rw [List.mem_singleton.mp new]
  · rw [stream_snoc, epoch, lastOf_snoc_self, counter]

end

lemma Remembers.set {k} {f : Checkpoint → Checkpoint}
    (rows : db'.checkpoints = db.checkpoints.map fun c => if c.series = k then f c else c) (owner : ∀ c, (f c).session = c.session)
    (le : ∀ c ∈ db.checkpoints, c.series = k → c.lastSampleSeq ≤ (f c).lastSampleSeq) : Remembers session db db' := by
  intro c mem hs
  refine ⟨_, rows ▸ List.mem_map_of_mem mem, ?_, ?_⟩
  · split
    · exact (owner c).trans hs
    · exact hs
  · split
    · next h => exact le c mem h
    · exact le_rfl

lemma Remembers.baseline {scope} : Remembers session db (db.baseline scope r time) :=
  fun c mem hs => ⟨c, List.mem_append_left _ mem, hs, le_rfl⟩

section
variable {db : Db} {r : Reading} {k : Series}

lemma checkpoint_baseline {scope time} (none : db.checkpoint r.series = none) :
    (db.baseline scope r time).checkpoint k =
      if r.series = k then some (.opened scope r.series r.epoch r.up r.down time) else db.checkpoint k := by
  unfold Db.checkpoint at none ⊢
  simp only [Db.baseline, lookup_append, lookup_singleton]
  by_cases same : r.series = k
  · subst same
    rw [none, if_pos rfl, Option.none_or]
    exact if_pos rfl
  · rw [if_neg same, if_neg (show (Checkpoint.opened scope r.series r.epoch r.up r.down time).series ≠ k from same),
      Option.or_none]

lemma checkpoint_set {db' : Db} {f : Checkpoint → Checkpoint}
    (rows : db'.checkpoints = db.checkpoints.map fun c => if c.series = r.series then f c else c)
    (named : ∀ c, (f c).series = c.series) : db'.checkpoint k = if k = r.series then (db.checkpoint k).map f else db.checkpoint k := by
  unfold Db.checkpoint
  rw [rows, lookup_update named]
  by_cases same : k = r.series
  · subst same
    rw [if_pos rfl]
    simp only [if_true]
  · simp only [if_neg same, Option.map_id_fun']
    rfl

lemma lt_nextSampleSeq {session c} (mem : c ∈ db.checkpoints) (hs : c.session = session) :
    c.lastSampleSeq < db.nextSampleSeq session := by
  have mem' : c.lastSampleSeq ∈ (db.checkpoints.filter (·.session == session)).map (·.lastSampleSeq) :=
    List.mem_map_of_mem (List.mem_filter.mpr ⟨mem, beq_iff_eq.mpr hs⟩)
  have le := List.le_max?_getD_of_mem mem' (k := 0)
  unfold Db.nextSampleSeq
  omega

end

lemma Remembers.rebase : Remembers session db (db.rebase r time) :=
  .set rfl (fun _ => rfl) fun _ _ _ => le_rfl

lemma Remembers.grown {e : Nat} {scope cp} :
    Remembers session db (db.draw.recordDelta r.series (db.sampleOf scope r cp time) e r.up r.down) :=
  .set rfl (fun _ => rfl) fun _ mem hk => (lt_nextSampleSeq mem (congrArg Series.session hk)).le

namespace Tallied

variable {session : Nat} {start db db' : Db} {acc : List Reading} {rec : List Sample} {r : Reading}

lemma remembered_of (h : Tallied session start db acc rec) (remembers : Remembers session db db') {x}
    (hx : x ∈ rec) : ∃ c ∈ db'.checkpoints, c.session = session ∧ x.sampleSeq ≤ c.lastSampleSeq := by
  obtain ⟨c, mem, hs, le⟩ := h.remembered x hx
  obtain ⟨c', mem', hs', le'⟩ := remembers c mem hs
  exact ⟨c', mem', hs', le.trans le'⟩

lemma kept (h : Tallied session start db acc rec) (cps : ∀ k : Series, k.session = session → db'.checkpoint k = db.checkpoint k)
    (remembers : Remembers session db db') (bytes : ∀ w, db'.sessionBytes w session = db.sessionBytes w session) :
    Tallied session start db' acc rec where
  linked := fun k hk => (cps k hk).symm ▸ h.linked k hk
  forward := h.forward
  counted := h.counted
  credited := fun w => (bytes w).trans (h.credited w)
  ordered := h.ordered
  remembered := fun _ => h.remembered_of remembers

lemma opens {c} (h : Tallied session start db acc rec) (new : ∀ r' ∈ acc, r'.series = r.series → r'.epoch < r.epoch)
    (at_ : db'.checkpoint r.series = some c) (epoch : c.sourceEpoch = r.epoch) (counter : ∀ w, c.counter w = r.counter w)
    (cps : ∀ k : Series, k ≠ r.series → db'.checkpoint k = db.checkpoint k)
    (remembers : Remembers session db db') (bytes : ∀ w, db'.sessionBytes w session = db.sessionBytes w session) :
    Tallied session start db' (acc ++ [r]) rec where
  linked := by
    intro k hk
    by_cases same : k = r.series
    · subst same
      rw [at_]
      exact .snoc (fun r' hr' hs => (new r' hr' hs).le) epoch counter
    · rw [cps k same]
      exact (h.linked k hk).snoc_ne (Ne.symm same)
  forward := fun w => stream_snoc ▸ (h.forward w).snoc_new (notMem_stream new)
  counted := fun w => by rw [h.counted w, stream_snoc, growth_snoc_new (notMem_stream new)]
  credited := fun w => by rw [bytes w, h.credited w, stream_snoc, growth_snoc_new (notMem_stream new)]
  ordered := h.ordered
  remembered := fun _ => h.remembered_of remembers

lemma grows {c c' x} (h : Tallied session start db acc rec) (owner : r.series.session = session)
    (before : db.checkpoint r.series = some c) (same : c.sourceEpoch = r.epoch) (le : ∀ w, c.counter w ≤ r.counter w)
    (sample : ∀ w, x.counted w = r.counter w - c.counter w) (seq : x.sampleSeq = db.nextSampleSeq session)
    (at_ : db'.checkpoint r.series = some c') (epoch : c'.sourceEpoch = r.epoch)
    (counter : ∀ w, c'.counter w = r.counter w) (last : c'.lastSampleSeq = x.sampleSeq)
    (cps : ∀ k : Series, k ≠ r.series → db'.checkpoint k = db.checkpoint k) (remembers : Remembers session db db')
    (bytes : ∀ w, db'.sessionBytes w session = db.sessionBytes w session + x.counted w) :
    Tallied session start db' (acc ++ [r]) (rec ++ [x]) := by
  have link := h.linked _ owner
  rw [before] at link
  obtain ⟨newest, lasts⟩ := link
  simp only [same] at newest lasts
  have growth_eq : ∀ w, growth (stream w (acc ++ [r])) = growth (stream w acc) + x.counted w := by
    intro w
    rw [stream_snoc, growth_snoc_old (h.forward w) (lasts w) (le w), sample w]
  refine ⟨?_, ?_, ?_, ?_, ?_, ?_⟩
  · intro k hk
    by_cases hit : k = r.series
    · subst hit
      rw [at_]
      exact .snoc newest epoch counter
    · rw [cps k hit]
      exact (h.linked k hk).snoc_ne (Ne.symm hit)
  · intro w
    rw [stream_snoc]
    exact (h.forward w).snoc_old (lasts w) (le w)
  · intro w
    rw [growth_eq, total_append, h.counted w, total_cons, total_nil, Nat.add_zero]
  · intro w
    rw [growth_eq, bytes w, h.credited w, Nat.add_assoc]
  · refine List.pairwise_append.mpr ⟨h.ordered, List.pairwise_singleton _ _, ?_⟩
    intro y hy z hz
    rw [List.mem_singleton.mp hz, seq]
    obtain ⟨d, mem, hs, le⟩ := h.remembered y hy
    exact le.trans_lt (lt_nextSampleSeq mem hs)
  · intro y hy
    rcases List.mem_append.mp hy with old | new
    · exact h.remembered_of remembers old
    · rw [List.mem_singleton.mp new]
      obtain ⟨mem, hk⟩ := lookup_mem at_
      exact ⟨c', mem, (congrArg Series.session hk).trans owner, last.ge⟩

end Tallied

section
variable {db db' : Db}

lemma newSamples_of_subset (h : ∀ r ∈ db'.samples, r ∈ db.samples) : newSamples db db' = [] := by
  unfold newSamples
  rw [List.filter_eq_nil_iff]
  intro r hr
  simpa using h r hr

lemma newSamples_snoc {x} (rows : db'.samples = db.samples ++ [x]) (fresh : ∀ r ∈ db.samples, r.id ≠ x.id) :
    newSamples db db' = [x] := by
  have new : x ∉ db.samples := fun mem => fresh x mem rfl
  unfold newSamples
  rw [rows, List.filter_append, List.filter_eq_nil_iff.mpr (fun r hr => by simpa using hr)]
  simp [new]

lemma sessionBytes_recordDelta {k x e up down session w s} (mem : s ∈ db.sessions) (owner : s.id = x.session) :
    (db.recordDelta k x e up down).sessionBytes w session =
      db.sessionBytes w session + if x.session = session then x.counted w else 0 := by
  have rows : (db.recordDelta k x e up down).sessions = db.sessions.map fun s => if s.id = x.session then
      { s with bytesUp := s.bytesUp + x.bytesUp, bytesDown := s.bytesDown + x.bytesDown } else s := rfl
  unfold Db.sessionBytes
  rw [rows, lookup_update]
  swap
  · exact fun _ => rfl
  by_cases hit : session = x.session
  · subst hit
    obtain ⟨y, hy⟩ := lookup_isSome (List.mem_map.mpr ⟨s, mem, owner⟩)
    simp only [hy, if_true, Option.map_some, Option.elim_some]
    cases w <;> rfl
  · simp only [if_neg hit, if_neg (Ne.symm hit), Option.map_id_fun', id_eq, Nat.add_zero]

end

lemma Tallied.step {start : Db} {acc : List Reading} {rec : List Sample} {a : Option Reading}
    (h : Tallied session start db acc rec) (step : CounterStep db a db') :
    Tallied session start db' (acc ++ a.toList.filter (·.series.session == session))
      (rec ++ (newSamples db db').filter (·.session == session)) := by
  cases step with
  | kept kept =>
    rw [newSamples_of_subset kept.samples]
    simp only [Option.toList_none, List.filter_nil, List.append_nil]
    refine h.kept (fun k _ => ?_) (fun c mem hs => ⟨c, kept.checkpoints ▸ mem, hs, le_rfl⟩) (kept.bytes · session)
    unfold Db.checkpoint
    rw [kept.checkpoints]
  | @baselined r scope time none =>
    have unsampled : newSamples db (db.baseline scope r time) = [] := newSamples_of_subset fun _ h => h
    simp only [unsampled, List.filter_nil, List.append_nil]
    have others : ∀ k : Series, k ≠ r.series → (db.baseline scope r time).checkpoint k = db.checkpoint k :=
      fun k ne => by rw [checkpoint_baseline none, if_neg (Ne.symm ne)]
    by_cases owner : r.series.session = session
    · rw [Option.toList_some, List.filter_cons_of_pos (by simpa using owner), List.filter_nil]
      have unread := h.linked _ owner
      rw [none] at unread
      exact h.opens (fun r' hr' hs => absurd hs (unread r' hr')) (by rw [checkpoint_baseline none, if_pos rfl]) rfl
        (fun w => by cases w <;> rfl) others .baseline fun _ => rfl
    · rw [Option.toList_some, List.filter_cons_of_neg (by simpa using owner), List.filter_nil, List.append_nil]
      exact h.kept (fun k hk => others k fun same => owner (same ▸ hk)) .baseline fun _ => rfl
  | @rebased r cp time found lt =>
    have unsampled : newSamples db (db.rebase r time) = [] := newSamples_of_subset fun _ h => h
    simp only [unsampled, List.filter_nil, List.append_nil]
    have cps : ∀ k : Series, (db.rebase r time).checkpoint k =
        if k = r.series then (db.checkpoint k).map (·.rebased r.epoch r.up r.down time) else db.checkpoint k :=
      fun k => checkpoint_set rfl fun _ => rfl
    have others : ∀ k : Series, k ≠ r.series → (db.rebase r time).checkpoint k = db.checkpoint k :=
      fun k ne => by rw [cps, if_neg ne]
    by_cases owner : r.series.session = session
    · rw [Option.toList_some, List.filter_cons_of_pos (by simpa using owner), List.filter_nil]
      have link := h.linked _ owner
      rw [found] at link
      exact h.opens (fun r' hr' hs => (link.1 r' hr' hs).trans_lt lt) (by rw [cps, if_pos rfl, found]; rfl) rfl
        (fun w => by cases w <;> rfl) others .rebase fun _ => rfl
    · rw [Option.toList_some, List.filter_cons_of_neg (by simpa using owner), List.filter_nil, List.append_nil]
      exact h.kept (fun k hk => others k fun same => owner (same ▸ hk)) .rebase fun _ => rfl
  | @grown r scope s cp time e mem id found same up down fresh =>
    have sampled : newSamples db (db.draw.recordDelta r.series (db.sampleOf scope r cp time) e r.up r.down) =
        [db.sampleOf scope r cp time] := newSamples_snoc rfl fresh
    rw [sampled]
    have cps : ∀ k : Series, (db.draw.recordDelta r.series (db.sampleOf scope r cp time) e r.up r.down).checkpoint k =
        if k = r.series then (db.checkpoint k).map _ else db.checkpoint k :=
      fun k => checkpoint_set (rfl : _ = db.checkpoints.map _) fun _ => rfl
    have others : ∀ k : Series, k ≠ r.series →
        (db.draw.recordDelta r.series (db.sampleOf scope r cp time) e r.up r.down).checkpoint k = db.checkpoint k :=
      fun k ne => by rw [cps, if_neg ne]
    have bytes : ∀ w, (db.draw.recordDelta r.series (db.sampleOf scope r cp time) e r.up r.down).sessionBytes w session =
        db.sessionBytes w session + if r.series.session = session then (db.sampleOf scope r cp time).counted w else 0 :=
      fun w => sessionBytes_recordDelta (show s ∈ db.draw.sessions from mem) id
    by_cases owner : r.series.session = session
    · simp only [if_pos owner] at bytes
      have sampleOwner : (db.sampleOf scope r cp time).session = session := owner
      have stands := cps r.series
      rw [if_pos rfl, found, Option.map_some] at stands
      rw [Option.toList_some, List.filter_cons_of_pos (by simpa using owner), List.filter_nil,
        List.filter_cons_of_pos (by simpa using sampleOwner), List.filter_nil]
      exact h.grows owner found same (fun w => by cases w <;> assumption) (fun w => by cases w <;> rfl)
        (owner ▸ rfl) stands same (fun w => by cases w <;> rfl) rfl others .grown bytes
    · simp only [if_neg owner, Nat.add_zero] at bytes
      rw [Option.toList_some, List.filter_cons_of_neg (by simpa using owner), List.filter_nil,
        List.filter_cons_of_neg (by simpa [Db.sampleOf] using owner), List.filter_nil, List.append_nil, List.append_nil]
      exact h.kept (fun k hk => others k fun same => owner (same ▸ hk)) .grown bytes

def AcctOp.applyAll (db : Db) (ops : List AcctOp) : Db := ops.foldl AcctOp.apply db

def readings (session : Nat) : Db → List AcctOp → List Reading
  | _, [] => []
  | db, op :: ops => (op.accepted db).toList.filter (·.series.session == session) ++ readings session (op.apply db) ops

def recorded (session : Nat) : Db → List AcctOp → List Sample
  | _, [] => []
  | db, op :: ops => (newSamples db (op.apply db)).filter (·.session == session) ++ recorded session (op.apply db) ops

lemma Tallied.run {start acc rec} (h : Tallied session start db acc rec) (ops : List AcctOp) :
    Tallied session start (AcctOp.applyAll db ops) (acc ++ readings session db ops) (rec ++ recorded session db ops) := by
  induction ops generalizing db acc rec with
  | nil => simpa only [readings, recorded, AcctOp.applyAll, List.foldl_nil, List.append_nil] using h
  | cons op ops ih =>
    have next := ih (h.step (counterStep op db))
    simpa only [readings, recorded, AcctOp.applyAll, List.foldl_cons, List.append_assoc] using next

lemma Tallied.start (fresh : ∀ c ∈ db.checkpoints, c.session ≠ session) : Tallied session db db [] [] where
  linked := by
    intro k hk
    have none : db.checkpoint k = none := by
      unfold Db.checkpoint lookup
      rw [List.find?_eq_none]
      intro c mem hit
      exact fresh c mem ((congrArg Series.session (of_decide_eq_true hit)).trans hk)
    rw [none]
    exact fun r hr => absurd hr List.not_mem_nil
  forward := fun w k f m first => by cases first
  counted := fun _ => rfl
  credited := fun _ => rfl
  ordered := .nil
  remembered := fun r hr => absurd hr List.not_mem_nil

/-- Bytes are counted exactly once. From tables that hold no counter of the session, after any operations: the
samples recorded, and the session's totals, are the growth of the accepted readings over each source epoch, in
each direction; the sequence numbers of the samples are strictly increasing, also across purges; and a counter
call that accepts no reading leaves the tables as they were. -/
theorem recorded_bytes_eq_growth {session : Nat} {db : Db} (fresh : ∀ c ∈ db.checkpoints, c.session ≠ session)
    (ops : List AcctOp) :
    (∀ w, total (·.counted w) (recorded session db ops) = growth (stream w (readings session db ops))) ∧
    (∀ w, (AcctOp.applyAll db ops).sessionBytes w session =
      db.sessionBytes w session + growth (stream w (readings session db ops))) ∧
    (recorded session db ops).Pairwise (·.sampleSeq < ·.sampleSeq) ∧
    ∀ before op later, ops = before ++ op :: later → op.observation.isSome →
      op.accepted (AcctOp.applyAll db before) = none →
      op.apply (AcctOp.applyAll db before) = AcctOp.applyAll db before := by
  have tallied := (Tallied.start fresh).run ops
  refine ⟨tallied.counted, tallied.credited, tallied.ordered, fun before op later _ counter none => ?_⟩
  rcases counterCall counter (AcctOp.applyAll db before) with ⟨-, same⟩ | ⟨some, -⟩
  · exact same
  · simp [none] at some

/-- Two epochs, a replay and a counter that went back. -/
def twoEpochs : List AcctOp :=
  [.openSession guest, .register (observe 1 0 0 0), .ingest (observe 1 30 10 5), .ingest (observe 1 30 10 5),
    .ingest (observe 1 20 10 6), .ingest (observe 2 5 5 7), .ingest (observe 2 25 45 8)]

theorem recorded_bytes_twoEpochs :
    (∀ c ∈ site.checkpoints, c.session ≠ 1) ∧ growth (stream .up (readings 1 site twoEpochs)) = 50 ∧
      total (·.counted .up) (recorded 1 site twoEpochs) = growth (stream .up (readings 1 site twoEpochs)) :=
  ⟨by decide, by decide +kernel, (recorded_bytes_eq_growth (by decide) twoEpochs).1 .up⟩

end StayConnect.Iam
