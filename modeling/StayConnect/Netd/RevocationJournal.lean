import StayConnect.Netd.Deadline

/-!
# The revocation journal

A revocation is an entry of a journal that the tick of an outage and the note of a plan consult. The entry
leaves the journal when a block measured after it is accepted; its age alone never removes it, because a block
that is still accepted is then measured after it. But the journal holds the newest four thousand and ninety-six
entries, and one more revocation forgets the oldest.
-/

namespace StayConnect.Netd

open Framing Prog Relation Transition

section
variable {p : Powers} {w w' : World} {e : ContRevocation} {op : Op}

lemma newest_eq {α : Type} {n : Nat} {l : List α} (h : l.length ≤ n) : newest n l = l := by
  rw [newest, Nat.sub_eq_zero_of_le h, List.drop_zero]

lemma newest_newest {α : Type} {n : Nat} {l : List α} {x : α} (hn : 0 < n) : newest n (newest n l ++ [x]) = newest n (l ++ [x]) := by
  simp only [newest, List.length_append, List.length_drop, List.length_singleton]
  rw [List.drop_append_of_le_length (by rw [List.length_drop]; omega), List.drop_append_of_le_length (by omega), List.drop_drop]
  congr 2
  omega

lemma mem_pruneJournal {journal : List ContRevocation} {hash : ContinuityBlock → Bytes} {b : ContinuityBlock} {now : Nat}
    (he : e ∈ journal) (room : journal.length ≤ contRevokeMax) (hv : b.valid hash now = true) (older : b.asOf ≤ e.revokedAt) :
    e ∈ pruneJournal journal now b.asOf := by
  have fresh : now ≤ b.asOf + maxBudgetAge := by
    simp only [ContinuityBlock.valid, Bool.and_eq_true, decide_eq_true_eq] at hv
    exact hv.2
  rw [pruneJournal, newest_eq ((List.length_filter_le _ _).trans room)]
  have young : now ≤ e.revokedAt + contRevokeKeep := by
    simp only [maxBudgetAge] at fresh
    simp only [contRevokeKeep]
    omega
  exact List.mem_filter.mpr ⟨he, by simp [young, older]⟩

lemma changeJournal_wp {f : List ContRevocation → List ContRevocation} : Wp Any (modifyCont fun c => { c with journal := f c.journal })
    (fun _ x => x.mem.cont.journal = f w.mem.cont.journal) w := .set rfl

lemma contRevoke_journal : Wp Any (contRevoke e)
    (fun _ y => y.mem.cont.journal = newest contRevokeMax (w.mem.cont.journal ++ [e])) w := by
  refine .bind (changeJournal_wp (f := fun journal => newest contRevokeMax (journal ++ [e]))) fun _ t _ ht => ?_
  have rest : Steps (Side { removes := fun _ => True }) (do
      let jerr ← saveJournal
      let _ ← contRefreshUsage
      let journal := (← get).mem.cont.journal
      ((← contSessions).filter fun x => revokedBy journal x.2).forM fun x => do
        dropSession x.1
        denySession x.2
      return jerr) :=
    .bind saveJournal_side fun _ => .bind contRefreshUsage_side fun _ => .read fun _ => .bind (Quiet.steps contSessions_quiet)
      fun _ => .bind (.forM fun _ => .bind dropSession_side fun _ => denySession_side fun _ => trivial) fun _ => .pure
  refine ((rest t).conseq fun _ y moves _ => ?_).any
  rw [(sides_shrunk .removals moves).journal, ht]

lemma contRevokes_journal {es : List ContRevocation} (room : w.mem.cont.journal.length + es.length ≤ contRevokeMax) :
    Wp Any (es.mapM contRevoke) (fun _ y => y.mem.cont.journal = w.mem.cont.journal ++ es) w := by
  refine (Wp.mapM (fun rest t => ∃ done, es = done ++ rest ∧ t.mem.cont.journal = w.mem.cont.journal ++ done) (fun _ _ => True)
    (fun e rest t ht => ?_) ⟨[], rfl, (List.append_nil _).symm⟩).conseq fun _ y _ hy => ?_
  · obtain ⟨done, rfl, hj⟩ := ht
    refine contRevoke_journal.conseq fun _ y _ hy => ⟨trivial, done ++ [e], by simp, ?_⟩
    rw [hy, hj, List.append_assoc]
    refine newest_eq ?_
    simp only [List.length_append, List.length_cons, List.length_nil] at room ⊢
    omega
  · obtain ⟨done, rfl, hj⟩ := hy.2
    rw [hj, List.append_nil]

lemma step_revocations (h : step w op = some w') (revokes : op.revocations w.env ≠ [])
    (room : w.mem.cont.journal.length + (op.revocations w.env).length ≤ contRevokeMax) :
    w'.mem.cont.journal = w.mem.cont.journal ++ op.revocations w.env := by
  have ran : ∀ {α : Type} {m : NetdM α}, carryOut op = (do let _ ← m) → op.enabled w = true →
      Wp Any m (fun _ y => y.mem.cont.journal = w.mem.cont.journal ++ op.revocations w.env) w →
      w'.mem.cont.journal = w.mem.cont.journal ++ op.revocations w.env := by
    intro α m hop enabled hm
    rw [step, if_pos enabled, hop] at h
    obtain rfl := Option.some.inj h
    exact hm.2
  cases op with
  | continuityRevoke ss es ip bridge now =>
    refine ran rfl rfl (.bind (contRevokes_journal room) fun _ y _ hy => .pure hy)
  | endFlows ip bridge now =>
    refine ran rfl rfl (.read (.bind contRevoke_journal fun jerr t _ ht => ?_))
    rw [newest_eq (by rw [List.length_append]; exact room)] at ht
    have rest : Steps (Side { removes := fun _ => True }) (do
        let els ← gateList
        let errs ← ((els.getD []).map (·.1) |>.filter (namesElement ip bridge)).mapM denyAccess
        let flushErr ← perform id
        return jerr || els.isNone || errs.any id || flushErr) :=
      .bind (Quiet.steps gateList_quiet) fun _ => .bind (.mapM fun _ => denyAccess_side trivial) fun _ =>
        .bind (perform_side fun w => .quiet w.calls w.clock (Nat.le_refl _)) fun _ => .pure
    refine ((rest t).conseq fun _ y moves _ => ?_).any
    rw [(sides_shrunk .removals moves).journal, ht]
    rfl
  | _ => exact (revokes rfl).elim

/-- The journal in memory and its file are empty or the one given. -/
structure Reread (journal : List ContRevocation) (t : World) : Prop where
  mem : t.mem.cont.journal = [] ∨ t.mem.cont.journal = journal
  disk : t.disk.contJournal = [] ∨ t.disk.contJournal = journal

lemma Side.reread {journal t u} (act : Side .starting t u) (h : Reread journal t) : Reread journal u := by
  cases act with
  | cont c hc => exact ⟨by rw [hc.journal]; exact h.mem, h.disk⟩
  | entry e he => exact he.elim
  | pruned env b now hn | accepted env b bootID nowBoot now hn => exact hn.elim
  | journalSaved => exact ⟨h.mem, h.mem⟩
  | journalRead => exact ⟨h.disk, h.disk⟩
  | _ => exact ⟨h.mem, h.disk⟩

/-- A step that forgets no entry as old as this one early: the journal has room for the entries of the step, an
accepted block was not measured after the entry, and a start finds the journal saved and reads it. -/
structure Remembering (e : ContRevocation) (w : World) (op : Op) (w' : World) : Prop where
  stepped : step w op = some w'
  room : w.mem.cont.journal.length + (op.revocations w.env).length ≤ contRevokeMax
  older : ∀ env now b st, op = .submit env now → env.continuity = some b → w'.mem.cont.st = some st → st.asOf = b.asOf →
    b.asOf ≤ e.revokedAt
  saved : op.starts → w.disk.contJournal = w.mem.cont.journal
  readable : op.starts → w'.mem.cont.journal ≠ []

lemma Remembering.keeps (h : Remembering e w op w') (base : Base w) (he : e ∈ w.mem.cont.journal) : e ∈ w'.mem.cont.journal := by
  have room : w.mem.cont.journal.length ≤ contRevokeMax := (Nat.le_add_right _ _).trans h.room
  cases (step_stepped base h.stepped).recordStep with
  | still _ same =>
    rw [same]
    exact he
  | sides _ plain entries moves =>
    by_cases revokes : op.revocations w.env = []
    · have holding : Powers.Holding _ := ⟨fun e he => by simpa [revokes] using entries e he, plain.notes, plain.restores⟩
      rw [(sides_shrunk holding moves).journal]
      exact he
    · rw [step_revocations h.stepped revokes h.room]
      exact List.mem_append_left _ he
  | @noted x _ env now same _ hnote =>
    have noted : PlanNoted env now x w' := hnote ▸ contNotePlan_wp.2
    rw [← same.cont] at he room
    cases noted with
    | lost _ hj | kept _ _ _ hj => exact hj ▸ he
    | accepted b m bootID nowBoot hblock hv _ hprune hst hj =>
      rw [hj, hprune]
      exact mem_pruneJournal he room hv (h.older env now b _ rfl hblock hst contStateOf_asOf)
  | started hop fresh _ hdisk moves =>
    have reread : Reread w.mem.cont.journal _ := ⟨.inl (by rw [fresh]), .inr (hdisk.trans (h.saved hop))⟩
    rcases (keep (S := Reread w.mem.cont.journal) (fun act => act.reread) moves reread).mem with none | same
    · exact (h.readable hop none).elim
    · rw [same]
      exact he

end

lemma run_remembers {w w' e ops} (run : Run (Remembering e) w ops w') (base : Base w)
    (he : e ∈ w.mem.cont.journal) : Base w' ∧ e ∈ w'.mem.cont.journal := by
  refine run.invariant (P := fun t => Base t ∧ e ∈ t.mem.cont.journal) ?_ ⟨base, he⟩
  rintro t op u h ⟨hbase, he⟩
  exact ⟨(step_stepped hbase h.stepped).base hbase, h.keeps hbase he⟩

/-- What has been revoked is not renewed by continuity, in every run after the revocation whose steps forget nothing
early: the entry is in the journal, and the tick writes leases only for sessions it does not name. -/
theorem revoked_not_renewed {w₀ u w w' w'' : World} {ops ops' : List Op} {op : Op} {e : ContRevocation} (started : Started w₀)
    (before : Run (ofOption step) w₀ ops u) (revoked : Remembering e u op w) (entered : e ∈ op.revocations u.env)
    (after : Run (Remembering e) w ops' w') (ticked : step w' .tickApply = some w'') :
    e ∈ w'.mem.cont.journal ∧ ∀ new, w''.log = new ++ w'.log → ∀ k a ttl time left, .authorized k a ttl time left ∈ new →
      ∃ s, w'.kept k s ∧ s.addr w'.env.parseIP = some a ∧ e.names s = false := by
  have hu := run_base before started.base
  have hw : e ∈ w.mem.cont.journal := by
    rw [step_revocations revoked.stepped (List.ne_nil_of_mem entered) revoked.room]
    exact List.mem_append_right _ entered
  obtain ⟨base, he⟩ := run_remembers after ((step_stepped hu revoked.stepped).base hu) hw
  refine ⟨he, fun new hlog k a ttl time left hmem => ?_⟩
  cases step_stepped base ticked with
  | tickApplied _ moves =>
    obtain ⟨new', hlog', hnew⟩ := sides_log moves
    obtain rfl : new = new' := List.append_cancel_right (hlog.symm.trans hlog')
    rcases hnew _ hmem with ⟨r, _, _, hr, heq⟩ | ⟨_, -, heq⟩
    · obtain ⟨rfl, rfl, rfl, rfl, rfl⟩ := Event.authorized.inj heq
      obtain ⟨s, hs, hbridge, hip, -, -, unrevoked⟩ := hr.session
      refine ⟨s, hs, by simp [ContSess.addr, hip, ← hbridge], ?_⟩
      simpa using List.any_eq_false.mp unrevoked e he
    · cases heq

/-- Seventy seconds after a plan for these guests a tick has asked the database. -/
def asked (sessions : List Session) : List Op :=
  [.arrive 1, .submit (vouchedFor 1 1000 sessions) 1000, .wait 70000, .tickRead 71000, .tickBegin, .tickProbe]

/-- One of two guests is revoked while a tick is under way: only the other one is renewed. -/
theorem revoked_not_renewed_under_way : ∃ w w' w'', Run (ofOption step) (Env.calm.start false) (asked [guest 'a' '1', guest 'b' '2']) w ∧
    step w (.continuityRevoke [['a']] [] [] [] 71000) = some w' ∧ step w' .tickApply = some w'' ∧
    .authorized (guest 'b' '2').key ⟨['b', 'r'], .v4 0x0a000006#32⟩ 30000 71000 (some (some 20000)) ∈ w''.log ∧
    { sessionID := ['a'], revokedAt := 71000 } ∈ w'.mem.cont.journal ∧
    ∀ new, w''.log = new ++ w'.log → ∀ k a ttl time left, .authorized k a ttl time left ∈ new →
      ∃ s, w'.kept k s ∧ s.addr w'.env.parseIP = some a ∧ ContRevocation.names { sessionID := ['a'], revokedAt := 71000 } s = false := by
  obtain ⟨w, before, hw⟩ := exists_run (f := step) (s := Env.calm.start false) (l := asked [guest 'a' '1', guest 'b' '2'])
    (P := fun w => w.mem.cont.journal.length = 0 && (step w (.continuityRevoke [['a']] [] [] [] 71000)).any fun w' =>
      (step w' .tickApply).any fun w'' =>
        .authorized (guest 'b' '2').key ⟨['b', 'r'], .v4 0x0a000006#32⟩ 30000 71000 (some (some 20000)) ∈ w''.log) (by decide +kernel)
  simp only [Bool.and_eq_true, decide_eq_true_eq, Option.any_eq_true] at hw
  obtain ⟨journal, w', revoked, w'', ticked, renewed⟩ := hw
  have remembering : Remembering { sessionID := ['a'], revokedAt := 71000 } w (.continuityRevoke [['a']] [] [] [] 71000) w' :=
    ⟨revoked, by rw [journal]; exact Nat.le_of_ble_eq_true rfl, nofun, False.elim, False.elim⟩
  exact ⟨w, w', w'', before, revoked, ticked, renewed,
    revoked_not_renewed (Env.calm.started false) before remembering (by simp [Op.revocations, revocationsOf]) (.nil w') ticked⟩

def journalled (calls : Nat) (journal : List ContRevocation) : World :=
  { Env.calm.start false with calls, mem.cont.journal := journal, disk.contJournal := journal }

attribute [local irreducible] newest in
lemma step_journalled (calls : Nat) (journal : List ContRevocation) (id : Bytes) :
    step (journalled calls journal) (.continuityRevoke [id] [] [] [] 1000) =
      some (journalled (calls + 1) (newest contRevokeMax (journal ++ [{ sessionID := id, revokedAt := 1000 }]))) := rfl

lemma run_journalled (n calls : Nat) (journal : List ContRevocation) (id : Bytes) :
    Run (ofOption step) (journalled calls (newest contRevokeMax journal)) (List.replicate n (.continuityRevoke [id] [] [] [] 1000))
      (journalled (calls + n) (newest contRevokeMax (journal ++ List.replicate n { sessionID := id, revokedAt := 1000 }))) := by
  induction n generalizing calls journal with
  | zero => simpa using .nil _
  | succ n ih =>
    have next := step_journalled calls (newest contRevokeMax journal) id
    rw [newest_newest (by decide)] at next
    have rest := ih (calls + 1) (journal ++ [{ sessionID := id, revokedAt := 1000 }])
    rw [List.append_assoc, List.singleton_append, ← List.replicate_succ, Nat.add_assoc, Nat.add_comm 1 n] at rest
    exact .cons next rest

/-- After four thousand and ninety-six more revocations the first one is forgotten: the guest it names is accepted with
a block measured before it, and renewed by the tick of an outage. -/
theorem oldest_revocation_forgotten : ∃ w w', Run (ofOption step) (Env.calm.start false)
    ((.continuityRevoke [['a']] [] [] [] 1000 :: List.replicate 4096 (.continuityRevoke [['x']] [] [] [] 1000)) ++
      asked [guest 'a' '1']) w ∧ step w .tickApply = some w' ∧
    .authorized (guest 'a' '1').key addrOne 30000 71000 (some (some 20000)) ∈ w'.log ∧
    (w.mem.cont.st.map fun st => (st.asOf, st.sessions.entries.map fun x => ContRevocation.names
      { sessionID := ['a'], revokedAt := 1000 } x.2)) = some (1000, [true]) := by
  have first : Run (ofOption step) (Env.calm.start false) [.continuityRevoke [['a']] [] [] [] 1000]
      (journalled 1 (newest contRevokeMax [{ sessionID := ['a'], revokedAt := 1000 }])) :=
    .cons (step_journalled 0 [] ['a']) (.nil _)
  have others := run_journalled 4096 1 [{ sessionID := ['a'], revokedAt := 1000 }] ['x']
  have forgotten : newest contRevokeMax ([{ sessionID := ['a'], revokedAt := 1000 }] ++
      List.replicate 4096 ({ sessionID := ['x'], revokedAt := 1000 } : ContRevocation)) =
      List.replicate 4096 { sessionID := ['x'], revokedAt := 1000 } := by
    rw [newest, List.length_append, List.length_replicate]
    rfl
  rw [forgotten] at others
  obtain ⟨w, w', after, ticked, hw⟩ := exists_last (f := step)
    (s := journalled 4097 (List.replicate 4096 { sessionID := ['x'], revokedAt := 1000 })) (l := asked [guest 'a' '1']) (a := .tickApply)
    (P := fun w w' => .authorized (guest 'a' '1').key addrOne 30000 71000 (some (some 20000)) ∈ w'.log ∧
      (w.mem.cont.st.map fun st => (st.asOf, st.sessions.entries.map fun x => ContRevocation.names
        { sessionID := ['a'], revokedAt := 1000 } x.2)) = some (1000, [true])) (by decide +kernel)
  obtain ⟨renewed, named⟩ := of_decide_eq_true hw
  exact ⟨w, w', (first.append others).append after, ticked, renewed, named⟩

end StayConnect.Netd
