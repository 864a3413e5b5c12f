import StayConnect.Iam.Runs
import StayConnect.Prog

/-!
# What an accounting operation can do

Every operation is a sequence of moves on the tables. `AcctMove op db db'` says once what one move of an
operation can do, with the facts that allowed it; `apply_moves` shows that an operation makes no other moves.
An invariant of the tables is then one case per move.
-/

namespace StayConnect.Iam
open Keyed Tx Relation

def AcctOp.observation : AcctOp → Option Observation
  | .register o => some o
  | .ingest o => some o
  | _ => none

/-- What `rebind_session_entitlement` requires of the tables. -/
structure Movable (db : Db) (session e : Nat) (t : Int) : Prop where
  exists_entitlement : db.entitlements.any (·.id == e) = true
  openBefore : ∀ b ∈ db.bindings, b.session = session → b.boundUntil = none → b.boundFrom ≤ t
  head : (db.headBinding session).all (fun b => b.boundUntil.all (· ≤ t)) = true
  fresh : ∀ b ∈ db.bindings, b.id ≠ db.uuid db.drawn

inductive AcctMove (op : AcctOp) (db : Db) : Db → Prop where
  | baselined {o : Observation} {r : Reading} {time : Int} : op.observation = some o → o.reading = some r →
    db.checkpoint r.series = none → AcctMove op db (db.baseline o.scope r time)
  | rebased {o : Observation} {r : Reading} {cp : Checkpoint} {time : Int} : op.observation = some o →
    o.reading = some r → db.checkpoint r.series = some cp → cp.sourceEpoch < r.epoch →
    AcctMove op db (db.rebase r time)
  | grown {o : Observation} {r : Reading} {s : Session} {cp : Checkpoint} {time : Int} {e : Nat} :
    op = .ingest o → o.reading = some r → s ∈ db.sessions → s.id = r.series.session → s.ended = none →
    db.checkpoint r.series = some cp → cp.sourceEpoch = r.epoch → cp.prevBytesUp ≤ r.up → cp.prevBytesDown ≤ r.down →
    db.p3EntitlementAt r.series.session time = some e →
    (∀ r' ∈ db.samples, r'.id ≠ db.uuid db.drawn) →
    AcctMove op db
      (db.draw.recordDelta r.series (db.sampleOf o.scope r cp time) e r.up r.down)
  | opened {s : Session} : op = .openSession s → (∀ s' ∈ db.sessions, s'.id ≠ s.id) →
    (∀ b ∈ db.bindings, b.id ≠ db.uuid db.drawn) → (∀ b ∈ db.bindings, b.session ≠ s.id) →
    AcctMove op db (db.draw.opened s (db.uuid db.drawn))
  | ended {session : Nat} {t : Int} {reason : String} : op = .endSession session t reason →
    AcctMove op db (db.endSession session t reason)
  | relocated {session : Nat} {ingress : Option String} {ip : Option Inet} : op = .relocate session ingress ip →
    AcctMove op db (op.apply db)
  | moved {session e : Nat} {t : Int} : op = .rebind session e t → Movable db session e t →
    AcctMove op db (db.draw.moved session e t (db.uuid db.drawn))
  | gapCharged {session e gap records : Nat} {scope : Scope} {t : Int} {db' : Db} {n : Nat} :
    op = .rebind session e t → t < db.now - day → (gap, records) = db.foldedGap scope session t → 0 < gap →
    (∃ b ∈ db.bindings, b.entitlement = e) → db.entitlements.any (·.id == e) = true →
    Commits (reconcileCrossingCheckpoint e) (db.chargeGap scope e t gap records) n db' → AcctMove op db db'
  | rolledUp {scope : Scope} {window : Int} {hours : List TierUsage} {rolledUpTo : Scope → Option Int} :
    op = .rollup scope window → AcctMove op db { db with hours, rolledUpTo }
  | folded {scope : Scope} {batch : Nat} {picked : PurgePicks} {r : Sample} : op = .purge scope batch picked →
    r ∈ picked.raw.flatten → r ∈ db.samples → AcctMove op db (db.foldSample scope r)
  | hoursDropped {scope : Scope} {batch : Nat} {picked : PurgePicks} {hours : List TierUsage} :
    op = .purge scope batch picked → AcctMove op db { db with hours }
  | foldedDropped {scope : Scope} {batch : Nat} {picked : PurgePicks} {rows : List FoldedUsage} :
    op = .purge scope batch picked → rows ∈ picked.folded →
    AcctMove op db { db with folded := db.folded.filter fun a => !decide (a ∈ rows) }
  | examined {scope : Scope} {e : Nat} {b : Binding} {final : Bool} : op = .advance scope →
    b ∈ db.bindings → b.entitlement = e → AcctMove op db (db.examine e b final)
  | recounted {scope : Scope} {e : Nat} : op = .advance scope → AcctMove op db (db.recount e)
  | crossed {scope : Scope} {e : Nat} {q : Int} {t : Option Int} : op = .advance scope →
    AcctMove op db (db.setCrossing e q t)
  | statusSet {e : Nat} {status : EntitlementStatus} : op = .setStatus e status → AcctMove op db (op.apply db)
  | ticked {t : Int} : op = .clock t → AcctMove op db (op.apply db)

abbrev AcctMoves (op : AcctOp) : Db → Db → Prop := ReflTransGen (AcctMove op)

lemma register_moves (o : Observation) : Keeps (AcctMoves (.register o)) (registerClassOrigin o) := by
  intro db res db' h
  cases registerClassOrigin_cases h with
  | opened reading none => exact .single (.baselined rfl reading none)
  | unchanged => exact .refl
  | reset reading found lt => exact .single (.rebased rfl reading found lt)

lemma ingest_moves (o : Observation) : Keeps (AcctMoves (.ingest o)) (ingestAbsoluteCounters o) := by
  intro db res db' h
  cases ingestAbsoluteCounters_cases h with
  | baselined reading none => exact .single (.baselined rfl reading none)
  | reset reading found lt => exact .single (.rebased rfl reading found lt)
  | replay | duplicate => exact .refl
  | grown reading mem id live found same up down attributed fresh =>
    exact .single (.grown rfl reading mem id live found same up down attributed fresh)

lemma openSession_moves (s : Session) : Keeps (AcctMoves (.openSession s)) (openSession s) := by
  intro db res db' h
  unfold openSession at h
  simp only [commits_get_bind, commits_require_bind, commits_genRandomUuid_bind, commits_modify] at h
  obtain ⟨new, fresh, first, rfl⟩ := h
  exact .single (.opened rfl new fresh first)

variable {e : Nat} {db db' : Db} {scope : Scope}

lemma moveBinding_commits {session t p} (h : Commits (moveBinding session e t) db p db') :
    p.1.id = session ∧ Movable db session e t ∧ db' = db.draw.moved session e t (db.uuid db.drawn) := by
  unfold moveBinding at h
  rw [commits_get_bind] at h
  split at h
  case h_1 => exact absurd h commits_throw
  case h_2 s found =>
    simp only [commits_require_bind, commits_genRandomUuid_bind, commits_modify_bind, commits_pure] at h
    obtain ⟨scope, openBefore, head, fresh, -, rfl, rfl⟩ := h
    obtain ⟨x, hx, same⟩ := List.any_eq_true.mp scope
    refine ⟨(lookup_mem found).2, ⟨List.any_eq_true.mpr ⟨x, hx, ?_⟩, openBefore, head, fresh⟩, rfl⟩
    exact (Bool.and_eq_true_iff.mp same).1

/-- The row `p6_reconcile_crossing_checkpoint` lifts: the first checkpoint of the entitlement, or its first
binding when it has none. -/
inductive Lifts (db : Db) (e : Nat) (b : Binding) : Prop where
  | checkpoint : db.firstCheckpoint e = some b.id → Lifts db e b
  | binding {b' : Binding} : db.firstCheckpoint e = none → b' ∈ db.bindings → b'.entitlement = e → b'.id = b.id →
    Lifts db e b

lemma reconcile_commits {n} (h : Commits (reconcileCrossingCheckpoint e) db n db') :
    (∃ b ∈ db.bindings, Lifts db e b ∧ db' = db.lift e b (db.lack e)) ∨
      (db' = db ∧ (db.entitlements.any (·.id == e) = true → (∃ b ∈ db.bindings, b.entitlement = e) → db.lack e = 0)) := by
  unfold reconcileCrossingCheckpoint at h
  rw [commits_get_bind] at h
  rcases commits_ite.mp h with ⟨-, h⟩ | ⟨none, h⟩
  · split at h
    case h_1 absent =>
      refine .inr ⟨(commits_pure.mp h).2, ?_⟩
      rintro - ⟨b, mem, same⟩
      have named : b ∈ db.bindingsOf e := List.mem_filter.mpr ⟨mem, by simp [same]⟩
      have empty := (Option.or_eq_none_iff.mp absent).2
      rw [Option.map_eq_none_iff, List.argmin_eq_none] at empty
      rw [empty] at named
      cases named
    case h_2 first found =>
      split at h
      case h_1 => exact absurd h commits_throw
      case h_2 b row =>
        simp only [commits_modify_bind, commits_pure] at h
        refine .inl ⟨b, (lookup_mem row).1, ?_, h.2⟩
        have id : b.id = first := (lookup_mem row).2
        cases cp : db.firstCheckpoint e with
        | some k =>
          rw [cp, Option.some_or] at found
          exact .checkpoint (by rw [id, cp, found])
        | none =>
          rw [cp, Option.none_or, Option.map_eq_some_iff] at found
          obtain ⟨b', least, same⟩ := found
          obtain ⟨mem, owned⟩ := List.mem_filter.mp (List.argmin_mem least)
          exact .binding cp mem (by simpa using owned) (same.trans id.symm)
  · refine .inr ⟨(commits_pure.mp h).2, ?_⟩
    intro exists_entitlement _
    by_contra pos
    exact none ⟨exists_entitlement, Nat.pos_of_ne_zero pos⟩

lemma chargeFoldedHistory_commits {s t u} (h : Commits (chargeFoldedHistory s e t) db u db') :
    db' = db ∨ ∃ gap records n, t < db.now - day ∧ (gap, records) = db.foldedGap s.scope s.id t ∧ 0 < gap ∧
      Commits (reconcileCrossingCheckpoint e) (db.chargeGap s.scope e t gap records) n db' := by
  unfold chargeFoldedHistory at h
  rw [commits_get_bind] at h
  rcases commits_ite.mp h with ⟨old, h⟩ | ⟨-, h⟩
  · rcases commits_ite.mp h with ⟨pos, h⟩ | ⟨-, h⟩
    · rw [commits_modify_bind, commits_bind] at h
      obtain ⟨n, _, reconciled, h⟩ := h
      obtain ⟨-, rfl⟩ := commits_pure.mp h
      exact .inr ⟨_, _, n, old.1, rfl, pos, reconciled⟩
    · exact .inl (commits_pure.mp h).2
  · exact .inl (commits_pure.mp h).2

lemma rebind_moves (session e : Nat) (t : Int) : Keeps (AcctMoves (.rebind session e t)) (rebindSessionEntitlement session e t) := by
  intro db res db' h
  unfold rebindSessionEntitlement at h
  rw [commits_bind] at h
  obtain ⟨⟨s, id⟩, db₁, move, h⟩ := h
  obtain ⟨named, movable, rfl⟩ := moveBinding_commits move
  obtain rfl : s.id = session := named
  rw [commits_bind] at h
  obtain ⟨_, db₂, charged, h⟩ := h
  obtain ⟨-, rfl⟩ := commits_pure.mp h
  have first : AcctMove (.rebind s.id e t) db (db.draw.moved s.id e t (db.uuid db.drawn)) := .moved rfl movable
  rcases chargeFoldedHistory_commits charged with rfl | ⟨gap, records, n, old, same, pos, reconciled⟩
  · exact .single first
  · refine (ReflTransGen.single first).tail (.gapCharged rfl old same pos ?_ movable.exists_entitlement reconciled)
    exact ⟨_, List.mem_append_right _ (List.mem_singleton.mpr rfl), rfl⟩

lemma rollup_moves (scope : Scope) (window : Int) : Keeps (AcctMoves (.rollup scope window)) (rollupAccountingUsage scope window) := by
  intro db res db' h
  unfold rollupAccountingUsage at h
  simp only [commits_require_bind, commits_get_bind] at h
  obtain ⟨-, h⟩ := h
  split at h
  case h_1 =>
    obtain ⟨-, rfl⟩ := commits_pure.mp h
    exact .refl
  case h_2 start _ =>
    rcases commits_ite.mp h with ⟨-, h⟩ | ⟨-, h⟩
    · obtain ⟨-, rfl⟩ := commits_pure.mp h
      exact .refl
    split at h
    all_goals
      simp only [commits_modify_bind, commits_pure] at h
      obtain ⟨-, rfl⟩ := h
      exact .single (.rolledUp rfl)

section
variable {α : Type} {R : Db → Db → Prop} {batch : Nat} {delete : List α → IamM Unit}

lemma deleteLoop_moves {batches} (body : ∀ picked ∈ batches, Keeps (ReflTransGen R) (delete picked)) :
    Keeps (ReflTransGen R) (deleteLoop batch delete batches) := by
  induction batches with
  | nil => exact Keeps.pure fun _ => .refl
  | cons picked rest ih =>
    cases rest with
    | nil => exact body picked List.mem_cons_self
    | cons next rest =>
      intro db u db' h
      simp only [deleteLoop] at h
      rw [commits_bind] at h
      obtain ⟨_, db₁, deleted, h⟩ := h
      rw [commits_require_bind] at h
      obtain ⟨-, h⟩ := h
      have more := ih (fun p hp => body p (List.mem_cons_of_mem _ hp)) db₁ u db' h
      exact (body picked List.mem_cons_self db _ db₁ deleted).trans more

end

section
variable {scope : Scope} {batch : Nat} {picked : PurgePicks}

/-- The picked samples are folded one after another: those not yet folded are still raw. -/
lemma foldSamples_moves {rows : List Sample} {db : Db} (sub : ∀ r ∈ rows, r ∈ picked.raw.flatten)
    (raw : ∀ r ∈ rows, r ∈ db.samples) (nodup : rows.Nodup) :
    AcctMoves (.purge scope batch picked) db (rows.foldl (Db.foldSample scope) db) := by
  induction rows generalizing db with
  | nil => exact .refl
  | cons r rows ih =>
    rw [List.foldl_cons]
    have first : AcctMove (.purge scope batch picked) db (db.foldSample scope r) :=
      .folded rfl (sub r List.mem_cons_self) (raw r List.mem_cons_self)
    refine ReflTransGen.head first (ih (fun x hx => sub x (List.mem_cons_of_mem _ hx)) ?_ nodup.tail)
    intro x hx
    have ne : x ≠ r := fun same => (List.nodup_cons.mp nodup).1 (same ▸ hx)
    exact (List.mem_erase_of_ne ne).mpr (raw x (List.mem_cons_of_mem _ hx))

lemma purgeRawBatch_moves {cut : Int} {rows : List Sample} (mem : rows ∈ picked.raw) :
    Keeps (AcctMoves (.purge scope batch picked)) (purgeRawBatch scope cut batch rows) := by
  intro db u db' h
  simp only [purgeRawBatch, commits_get_bind, commits_require_bind, commits_modify] at h
  obtain ⟨⟨nodup, eligible, -⟩, rfl⟩ := h
  refine foldSamples_moves (fun r hr => List.mem_flatten.mpr ⟨rows, mem, hr⟩) ?_ nodup
  intro r hr
  exact (List.mem_filter.mp (eligible r hr)).1

lemma purgeHourBatch_moves {cut rows} : Keeps (AcctMoves (.purge scope batch picked)) (purgeHourBatch scope cut batch rows) := by
  intro db u db' h
  simp only [purgeHourBatch, commits_get_bind, commits_require_bind, commits_modify] at h
  obtain ⟨-, rfl⟩ := h
  exact .single (.hoursDropped rfl)

lemma purgeFoldedBatch_moves {cut rows} (mem : rows ∈ picked.folded) :
    Keeps (AcctMoves (.purge scope batch picked)) (purgeFoldedBatch scope cut batch rows) := by
  intro db u db' h
  simp only [purgeFoldedBatch, commits_get_bind, commits_require_bind, commits_modify] at h
  obtain ⟨-, rfl⟩ := h
  exact .single (.foldedDropped rfl mem)

lemma purgeRaw_moves : Keeps (AcctMoves (.purge scope batch picked)) (purgeRaw scope batch picked.raw) := by
  intro db u db' h
  unfold purgeRaw at h
  rw [commits_get_bind] at h
  split at h
  case h_1 =>
    obtain ⟨-, rfl⟩ := commits_require.mp h
    exact .refl
  case h_2 => exact deleteLoop_moves (fun rows mem => purgeRawBatch_moves mem) db u db' h

lemma purgeFinished_moves : Keeps (AcctMoves (.purge scope batch picked)) (purgeFinished scope batch picked.hours picked.folded) := by
  intro db u db' h
  unfold purgeFinished at h
  rw [commits_get_bind] at h
  split at h
  case h_1 =>
    obtain ⟨-, rfl⟩ := commits_require.mp h
    exact .refl
  case h_2 =>
    rw [commits_bind] at h
    obtain ⟨_, db₁, hours, folded⟩ := h
    exact (deleteLoop_moves (fun rows _ => purgeHourBatch_moves) _ _ _ hours).trans
      (deleteLoop_moves (fun rows mem => purgeFoldedBatch_moves mem) _ _ _ folded)

lemma purge_moves : Keeps (AcctMoves (.purge scope batch picked)) (purgeAccountingDetail scope batch picked) := by
  intro db n db' h
  unfold purgeAccountingDetail at h
  rw [commits_require_bind] at h
  simp only [commits_bind, commits_pure] at h
  obtain ⟨-, _, db₁, raw, _, db₂, finished, -, rfl⟩ := h
  exact (purgeRaw_moves db _ db₁ raw).trans (purgeFinished_moves db₁ _ _ finished)

end

lemma advance_bindings (moves : AcctMoves (.advance scope) db db') : db'.bindings = db.bindings := by
  induction moves with
  | refl => rfl
  | tail _ move ih =>
    rw [← ih]
    cases move
    case examined => rfl
    case recounted => rfl
    case crossed => rfl
    case baselined h _ _ => cases h
    case rebased h _ _ _ => cases h
    all_goals contradiction

lemma examineBinding_commits {b u} (h : Commits (examineBinding e b) db u db') : db' = db ∨ ∃ final, db' = db.examine e b final := by
  unfold examineBinding at h
  rw [commits_get_bind] at h
  split at h
  case h_1 => exact .inl (commits_pure.mp h).2
  case h_2 =>
    rcases commits_ite.mp h with ⟨-, h⟩ | ⟨-, h⟩
    · exact .inl (commits_pure.mp h).2
    · exact .inr ⟨_, commits_modify.mp h⟩

lemma examineAll_moves {bs : List Binding} {u : PUnit}
    (mem : ∀ b ∈ bs, b ∈ db.bindings ∧ b.entitlement = e) (h : Commits (bs.forM (examineBinding e)) db u db') :
    AcctMoves (.advance scope) db db' := by
  induction bs generalizing db with
  | nil =>
    obtain ⟨-, rfl⟩ := commits_pure.mp h
    exact .refl
  | cons b bs ih =>
    obtain ⟨_, db₁, h₁, h₂⟩ := commits_bind.mp h
    have one : AcctMoves (.advance scope) db db₁ := by
      rcases examineBinding_commits h₁ with rfl | ⟨final, rfl⟩
      · exact .refl
      · exact .single (.examined rfl (mem b List.mem_cons_self).1 (mem b List.mem_cons_self).2)
    refine one.trans (ih ?_ h₂)
    intro b' hb'
    rw [advance_bindings one]
    exact mem b' (List.mem_cons_of_mem _ hb')

lemma advanceEntitlement_moves (e : Nat) (q : Int) : Keeps (AcctMoves (.advance scope)) (advanceEntitlement e q) := by
  intro db u db' h
  unfold advanceEntitlement at h
  rw [commits_get_bind] at h
  simp only [commits_bind, commits_modify] at h
  obtain ⟨_, db₁, examined, rfl⟩ := h
  have all : ∀ b ∈ db.bindingsOf e, b ∈ db.bindings ∧ b.entitlement = e := by
    intro b hb
    have := List.mem_filter.mp hb
    exact ⟨this.1, by simpa using this.2⟩
  refine (examineAll_moves all examined).trans ?_
  split
  case isFalse => exact .refl
  case isTrue =>
    split
    case h_1 => exact (ReflTransGen.single (.recounted rfl)).tail (.crossed rfl)
    case h_2 => exact .single (.crossed rfl)

lemma advance_moves (scope : Scope) : Keeps (AcctMoves (.advance scope)) (p6AdvanceDataCrossing scope) := by
  intro db n db' h
  unfold p6AdvanceDataCrossing at h
  rw [commits_get_bind] at h
  simp only [commits_bind, commits_pure] at h
  obtain ⟨_, db₁, loop, -, rfl⟩ := h
  exact Keeps.forM (R := AcctMoves (.advance scope)) (fun _ => .refl) (fun h k => h.trans k)
    (fun x _ => advanceEntitlement_moves x.1 x.2) _ _ _ loop

/-- An operation makes only moves of `AcctMove`. -/
theorem apply_moves (op : AcctOp) (db : Db) : AcctMoves op db (op.apply db) := by
  cases op with
  | register o => exact (register_moves o).after (fun _ => .refl) db
  | ingest o => exact (ingest_moves o).after (fun _ => .refl) db
  | openSession s => exact (openSession_moves s).after (fun _ => .refl) db
  | endSession session t reason => exact .single (.ended rfl)
  | relocate session ingress ip => exact .single (.relocated rfl)
  | rebind session e t => exact (rebind_moves session e t).after (fun _ => .refl) db
  | rollup scope window => exact (rollup_moves scope window).after (fun _ => .refl) db
  | purge scope batch picked => exact purge_moves.after (fun _ => .refl) db
  | advance scope => exact (advance_moves scope).after (fun _ => .refl) db
  | setStatus e status => exact .single (.statusSet rfl)
  | clock t => exact .single (.ticked rfl)

end StayConnect.Iam
