import StayConnect.Netd.Operations

/-!
# The continuity record from step to step

What a step does to the record continuity keeps, to the revocation journal and to their files: most steps
leave them alone or make side moves that accept and restore nothing; a submission notes its plan; a start
reads the files back (`RecordStep`). And what the record of an accepted block is made of.
-/

namespace StayConnect.Netd

open Framing Prog Relation

section
variable {p : Powers} {w w' u v : World} {env : Envelope} {now : Nat} {op : Op}

/-- The record, the journal and their files are the same. -/
structure SameRecord (w w' : World) : Prop where
  env : w'.env = w.env
  clock : w.clock ≤ w'.clock
  cont : w'.mem.cont = w.mem.cont
  contState : w'.disk.contState = w.disk.contState
  contJournal : w'.disk.contJournal = w.disk.contJournal

lemma SameRecord.refl (w : World) : SameRecord w w := ⟨rfl, Nat.le_refl _, rfl, rfl, rfl⟩

lemma SameRecord.trans (h : SameRecord u v) (h' : SameRecord v w) : SameRecord u w where
  env := h'.env.trans h.env
  clock := h.clock.trans h'.clock
  cont := h'.cont.trans h.cont
  contState := h'.contState.trans h.contState
  contJournal := h'.contJournal.trans h.contJournal

lemma Outer.record (h : Outer w w') : SameRecord w w' where
  env := h.env
  clock := h.clock
  cont := h.cont
  contState := h.contState
  contJournal := h.contJournal

lemma Quiet.record (h : Quiet w w') : SameRecord w w' := by
  obtain ⟨calls, clock, hc⟩ := h
  exact { SameRecord.refl w with clock := hc }

lemma Enforced.same (h : Enforced env now w w') : SameRecord w w' := by
  cases h with
  | unchanged => exact { SameRecord.refl w with }
  | walked start deadline hp =>
    have outer := hp.begun.toOuter.trans ((moves_outer hp.cleared).trans (passes_outer hp.walked))
    exact { outer.record with }

lemma Saved.record (h : Saved env now w w') : SameRecord w w' := by
  obtain ⟨calls, clock, plan, conv, hc, -, -⟩ := h
  exact { SameRecord.refl w with clock := hc }

/-- Side moves that accept no block and read no file back. -/
structure Powers.Plain (p : Powers) : Prop where
  notes : ∀ env b now, ¬ p.notes env b now
  restores : ¬ p.restores

/-- The entries the operation makes in the revocation journal. -/
def Op.revocations (env : Env) : Op → List ContRevocation
  | .endFlows ip bridge now => [{ ip := env.ipText (.v4 ip), bridge, revokedAt := now }]
  | .continuityRevoke ss es ip bridge now => revocationsOf ss es ip bridge now
  | _ => []

/-- What a step does to the record. -/
inductive RecordStep : World → Op → World → Prop where
  | still {w w' : World} {op : Op} : ¬ op.starts → w'.mem.cont = w.mem.cont → w'.disk.contState = w.disk.contState →
    w'.disk.contJournal = w.disk.contJournal → RecordStep w op w'
  | sides {w w' : World} {op : Op} {p : Powers} : ¬ op.starts → p.Plain → (∀ e, p.entries e → e ∈ op.revocations w.env) →
    ReflTransGen (Side p) w w' → RecordStep w op w'
  | noted {w x w' : World} {env : Envelope} {now : Nat} : SameRecord w x → ReflTransGen (Side (.noting env now)) x w' →
    w' = ((contNotePlan env now).run x).2 → RecordStep w (.submit env now) w'
  | started {w x w' : World} {op : Op} : op.starts → x.mem.cont = {} → x.disk.contState = w.disk.contState →
    x.disk.contJournal = w.disk.contJournal → ReflTransGen (Side .starting) x w' → RecordStep w op w'

lemma Restarted.recordStep {cfg} (h : Restarted cfg v w') (hop : op.starts)
    (hs : v.disk.contState = w.disk.contState) (hj : v.disk.contJournal = w.disk.contJournal) : RecordStep w op w' := by
  cases h with
  | mk hx moves => exact .started hop (by rw [hx.cont]; rfl) (by rw [hx.disk]; exact hs) (by rw [hx.disk]; exact hj) moves

lemma Stepped.recordStep (h : Stepped w op w') : RecordStep w op w' := by
  cases h with
  | arrived | rescoped | waited | carried => exact .still id rfl rfl rfl
  | submitted _ hs =>
    cases hs with
    | refused hq =>
      have same := hq.record
      exact .still id same.cont same.contState same.contJournal
    | admitted unreadable ha he hsave moves noted => exact .noted ((ha.quiet.record.trans he.same).trans hsave.record) moves noted
  | refused hq hx => exact hx.recordStep trivial hq.record.contState hq.record.contJournal
  | crashed unreadable _ ha he hx =>
    have same := ha.quiet.record.trans he.same
    exact hx.recordStep trivial same.contState same.contJournal
  | restarted hx | rebooted hx => exact hx.recordStep trivial rfl rfl
  | endedFlows moves => exact .sides id ⟨fun _ _ _ => id, id⟩ (fun e he => List.mem_singleton.mpr he) moves
  | revoked moves => exact .sides id ⟨fun _ _ _ => id, id⟩ (fun e he => he) moves
  | renewed moves | tickRead moves | tickBegun moves | tickProbed moves | tickApplied _ moves =>
    exact .sides id ⟨fun _ _ _ => id, id⟩ (fun _ => False.elim) moves

/-- Only files change, and what is remembered of writing them. -/
structure Filed (w w' : World) : Prop where
  mem : ∃ lastSaved dirty, w'.mem = { w.mem with cont.lastSaved := lastSaved, cont.dirty := dirty }
  env : w'.env = w.env

lemma Filed.refl (w : World) : Filed w w := ⟨⟨_, _, rfl⟩, rfl⟩

lemma Filed.trans (h : Filed u v) (h' : Filed v w) : Filed u w := by
  obtain ⟨_, _, hm⟩ := h.mem
  obtain ⟨_, _, hm'⟩ := h'.mem
  exact ⟨⟨_, _, by rw [hm', hm]⟩, h'.env.trans h.env⟩

lemma Quiet.filed (h : Quiet w w') : Filed w w' := by
  obtain ⟨calls, clock, -⟩ := h
  exact ⟨⟨_, _, rfl⟩, rfl⟩

lemma perform_filed {f} (hf : ∀ w, Filed w (f w)) : Steps Filed (perform f) := by
  refine .bind (call_quiet.mono Quiet.filed) fun _ => .bind (outcomeOf_quiet.mono Quiet.filed) fun _ => ?_
  unfold land
  split
  · exact .bind (.change hf) fun _ => .pure
  · exact .pure

lemma saveState_filed : Steps Filed saveState := by
  refine .read fun w => ?_
  cases w.mem.cont.st with
  | none => exact .pure
  | some st =>
    refine .bind (perform_filed fun _ => ⟨⟨_, _, rfl⟩, rfl⟩) fun err => ?_
    split
    · exact .bind (.read fun _ => .pure) fun _ => .change fun _ => ⟨⟨_, _, rfl⟩, rfl⟩
    · exact .pure

lemma Filed.wp {α : Type} {m : NetdM α} (h : Steps Filed m) : Wp Any m (fun _ => Filed w) w :=
  ((h w).conseq fun _ _ moves _ => closed Filed.refl Filed.trans moves).any

lemma removeState_wp : Wp Any removeState (fun _ y => y.mem.cont.st = none ∧ y.mem.cont.journal = w.mem.cont.journal) w := by
  refine .bind (.set (Q := fun _ t => t.mem.cont.st = none ∧ t.mem.cont.journal = w.mem.cont.journal) ⟨rfl, rfl⟩) fun _ t _ ht => ?_
  have filed : Steps Filed (perform fun w => { w with disk.contState := none }) := perform_filed fun _ => ⟨⟨_, _, rfl⟩, rfl⟩
  refine .discard ((Filed.wp filed).conseq fun _ y _ hy => ?_)
  obtain ⟨_, _, hm⟩ := hy.mem
  rw [hm]
  exact ht

/-- What noting a plan leaves in memory. -/
inductive PlanNoted (env : Envelope) (now : Nat) (w : World) : World → Prop where
  | lost {y : World} : y.mem.cont.st = none → y.mem.cont.journal = w.mem.cont.journal → PlanNoted env now w y
  | kept {y : World} (nowBoot : Nat) : env.continuity = none →
    y.mem.cont.st = w.mem.cont.st.map (fun st => { st with lastPlanBoot := nowBoot }) →
    y.mem.cont.journal = w.mem.cont.journal → PlanNoted env now w y
  | accepted {y : World} (b : ContinuityBlock) (m : Mem) (bootID : Bytes) (nowBoot : Nat) : env.continuity = some b →
    b.valid w.env.hashContinuity now = true → m.cont.st = w.mem.cont.st.map (fun st => { st with lastPlanBoot := nowBoot }) →
    m.cont.journal = pruneJournal w.mem.cont.journal now b.asOf →
    y.mem.cont.st = some (contStateOf env b m bootID nowBoot now) → y.mem.cont.journal = m.cont.journal → PlanNoted env now w y

lemma setJournal_wp {journal} : Wp Any (modifyCont fun c => { c with journal })
    (fun _ x => x.mem.cont.st = w.mem.cont.st ∧ x.mem.cont.journal = journal) w := .set ⟨rfl, rfl⟩

lemma contNotePlan_wp : Wp Any (contNotePlan env now) (fun _ => PlanNoted env now w) w := by
  have lost : ∀ t : World, t.mem.cont.journal = w.mem.cont.journal → Wp Any removeState (fun _ => PlanNoted env now w) t :=
    fun t ht => removeState_wp.conseq fun _ y _ hy => .lost hy.1 (hy.2.trans ht)
  refine .bind (Filed.wp (query_quiet.mono Quiet.filed)) fun nowBoot t _ ht => ?_
  obtain ⟨lastSaved, dirty, hm⟩ := ht.mem
  have hjournal : t.mem.cont.journal = w.mem.cont.journal := by rw [hm]
  cases nowBoot with
  | none => exact lost t hjournal
  | some nowBoot =>
    have hst : t.mem.cont.st = w.mem.cont.st := by rw [hm]
    refine .bind (.set (Q := fun _ u => u.mem.cont.st = w.mem.cont.st.map (fun st => { st with lastPlanBoot := nowBoot }) ∧
      u.mem.cont.journal = w.mem.cont.journal ∧ u.env = w.env) ⟨by rw [← hst], hjournal, ht.env⟩) fun _ u _ hu => ?_
    cases hblock : env.continuity with
    | none => exact .pure (.kept nowBoot hblock hu.1 hu.2.1)
    | some b =>
      refine .read ?_
      dsimp only
      split
      · exact lost u hu.2.1
      next hvalid =>
        simp only [Bool.or_eq_true, Bool.not_eq_true', not_or, Bool.not_eq_false] at hvalid
        refine .bind (Filed.wp (query_quiet.mono Quiet.filed)) fun bootID v _ hv => ?_
        obtain ⟨lastSaved, dirty, hm⟩ := hv.mem
        have hjournal : v.mem.cont.journal = w.mem.cont.journal := by rw [hm, ← hu.2.1]
        cases bootID with
        | none => exact lost v hjournal
        | some bootID =>
          have save : ∀ x : World, x.mem.cont.st = u.mem.cont.st → x.mem.cont.journal = pruneJournal w.mem.cont.journal now b.asOf →
              Wp Any (do
                let st := contStateOf env b (← get).mem bootID nowBoot now
                modifyCont fun c => { c with st := some st, dirty := true }
                if ← saveDue then saveState) (fun _ => PlanNoted env now w) x := by
            intro x hst hjournal
            refine .read (.bind (.set (Q := fun _ y => y.mem.cont.st = some (contStateOf env b x.mem bootID nowBoot now) ∧
              y.mem.cont.journal = x.mem.cont.journal) ⟨rfl, rfl⟩) fun _ y _ hy => ?_)
            refine .bind (.read (.pure rfl) : Wp Any saveDue (fun _ z => z = y) y) fun due z _ hz => ?_
            subst hz
            have noted : ∀ y : World, Filed z y → PlanNoted env now w y := fun y filed => by
              obtain ⟨_, _, hm⟩ := filed.mem
              exact .accepted b x.mem bootID nowBoot hblock (hu.2.2 ▸ hvalid.2) (hst.trans hu.1) hjournal (by rw [hm]; exact hy.1)
                (by rw [hm]; exact hy.2)
            split
            · exact (Filed.wp saveState_filed).conseq fun _ y _ => noted y
            · exact .pure (noted z (.refl z))
          have hst : v.mem.cont.st = u.mem.cont.st := by rw [hm]
          refine .read ?_
          rw [hjournal]
          refine .bind setJournal_wp fun _ x _ hx => ?_
          replace hx : x.mem.cont.st = u.mem.cont.st ∧ x.mem.cont.journal = pruneJournal w.mem.cont.journal now b.asOf :=
            ⟨hx.1.trans hst, hx.2⟩
          split
          · refine .bind (Filed.wp (perform_filed fun _ => ⟨⟨_, _, rfl⟩, rfl⟩)) fun _ y _ hy => ?_
            obtain ⟨_, _, hm⟩ := hy.mem
            exact save y (by rw [hm]; exact hx.1) (by rw [hm]; exact hx.2)
          · exact save x hx.1 hx.2

section
variable {b : ContinuityBlock} {m : Mem} {bootID : Bytes} {nowBoot : Nat} {k : Key} {cs : ContSess} {s : Session}

/-- What continuity knows of a session it keeps. -/
structure Noted (b : ContinuityBlock) (m : Mem) (nowBoot now : Nat) (s : Session) (cs : ContSess) : Prop where
  deadline : ∃ h ∈ b.sessions, h.sessionID = s.sessionID ∧
    cs.deadlineBoot = nowBoot + contRemaining b h.hardEnd s.accessEndsAt now ∧
    1000 ≤ contRemaining b h.hardEnd s.accessEndsAt now
  unrevoked : revokedBy m.cont.journal cs = false
  unused : cs.lastUsed = 0

lemma contSessOf_noted (h : contSessOf b m nowBoot now s = some cs) : Noted b m nowBoot now s cs := by
  unfold contSessOf at h
  split at h
  · cases h
  split at h
  next hs _ _ hfind _ _ =>
    obtain ⟨hkeep, heq⟩ := Option.ite_none_left_eq_some.mp h
    simp only [Bool.or_eq_true, not_or, Bool.not_eq_true, decide_eq_true_eq, not_lt] at hkeep
    obtain rfl := Option.some.inj heq
    refine ⟨⟨hs, ?_, ?_, rfl, hkeep.1.2⟩, hkeep.1.1, rfl⟩
    · exact List.mem_reverse.mp (List.mem_of_find?_eq_some hfind)
    · simpa using List.find?_some hfind
  · cases h

lemma lookup_eraseSessions {t ks} : (eraseSessions t ks).lookup k = if k ∈ ks then none else t.lookup k := by
  induction ks generalizing t with
  | nil => simp [eraseSessions]
  | cons k' rest ih =>
    change (eraseSessions (t.erase k') rest).lookup k = _
    rw [ih]
    rcases eq_or_ne k k' with rfl | hne
    · simp
    · simp [hne, AList.lookup_erase_ne hne]

lemma ContState.carry_session {st old : ContState} (h : (st.carry old).sessions.lookup k = some cs) : st.sessions.lookup k = some cs := by
  change (eraseSessions st.sessions _).lookup k = some cs at h
  rw [lookup_eraseSessions] at h
  split at h
  · cases h
  · exact h

lemma note_session {st : ContState} {l : List Session}
    (h : (l.foldl (fun st s => match contSessOf b m nowBoot now s with
      | some cs => st.note b s.key cs
      | none => st) st).sessions.lookup k = some cs) :
    st.sessions.lookup k = some cs ∨ ∃ s ∈ l, s.key = k ∧ contSessOf b m nowBoot now s = some cs := by
  induction l generalizing st with
  | nil => exact .inl h
  | cons s rest ih =>
    rcases ih h with h | ⟨s', hs', hk, hcs⟩
    · dsimp only at h
      cases hs : contSessOf b m nowBoot now s with
      | none =>
        rw [hs] at h
        exact .inl h
      | some cs' =>
        rw [hs] at h
        change (st.sessions.insert s.key cs').lookup k = some cs at h
        rcases eq_or_ne k s.key with rfl | hne
        · rw [AList.lookup_insert] at h
          exact .inr ⟨s, by simp, rfl, hs.trans h⟩
        · rw [AList.lookup_insert_ne hne] at h
          exact .inl h
    · exact .inr ⟨s', by simp [hs'], hk, hcs⟩

lemma contStateOf_session (h : (contStateOf env b m bootID nowBoot now).sessions.lookup k = some cs) :
    ∃ s ∈ env.sessions, s.key = k ∧ Noted b m nowBoot now s cs := by
  have built : ∀ st : ContState, st.sessions = ∅ → (env.sessions.foldl (fun st s => match contSessOf b m nowBoot now s with
      | some cs => st.note b s.key cs
      | none => st) st).sessions.lookup k = some cs → ∃ s ∈ env.sessions, s.key = k ∧ Noted b m nowBoot now s cs := by
    intro st hst h
    rcases note_session h with h | ⟨s, hs, hk, hcs⟩
    · simp [hst] at h
    · exact ⟨s, hs, hk, contSessOf_noted hcs⟩
  unfold contStateOf at h
  dsimp only at h
  split at h
  · split at h
    · exact built _ rfl (ContState.carry_session h)
    · exact built _ rfl h
  · exact built _ rfl h

lemma contStateOf_asOf : (contStateOf env b m bootID nowBoot now).asOf = b.asOf := by
  have built : ∀ (l : List Session) (st : ContState), st.asOf = b.asOf → (l.foldl (fun st s =>
      match contSessOf b m nowBoot now s with
      | some cs => st.note b s.key cs
      | none => st) st).asOf = b.asOf := by
    intro l
    induction l with
    | nil => exact fun _ h => h
    | cons s rest ih =>
      intro st h
      refine ih _ ?_
      dsimp only
      split
      · exact h
      · exact h
  unfold contStateOf
  dsimp only
  split
  · split
    · exact built _ _ rfl
    · exact built _ _ rfl
  · exact built _ _ rfl

end

end

end StayConnect.Netd
