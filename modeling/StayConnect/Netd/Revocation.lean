import StayConnect.Netd.Timer

/-!
# Revoked addresses

A revocation that succeeded has the element of its address removed. It comes back only if the memory of
the last clean walk still holds a session there: the timer writes absent elements too, the continuity tick
only those it finds. `Quelled` says that neither can bring the address back; every step keeps it that does
not put a plan in force which lists the address.
-/

namespace StayConnect.Netd

open Framing Prog Relation Transition

/-- Nothing but a new plan authorizes the address: its element is gone, and no walk remembers it. -/
def Quelled (a : Addr) (w : World) : Prop := w.left a = none ∧ Confined (· ≠ a) w

section
variable {a : Addr} {p : Powers} {W : Walk} {o : Scope} {w w' w₀ t : World} {env : Envelope} {now : Nat}

lemma denyAccess_gone : Wp (Side (.revoking fun _ => False)) (denyAccess a) (fun err t => err = false → t.left a = none) w := by
  have removed : Wp (Side (.revoking fun _ => False)) (revoke a) (fun _ _ => True) w := perform_side (fun _ => .erased a trivial) w
  refine .bind removed fun err t _ _ => ?_
  cases err with
  | true => exact .pure (by simp)
  | false =>
    refine .bind (query_answer.mono Quiet.side) fun still u _ hu => ?_
    cases still with
    | none => exact .pure (by simp)
    | some still =>
      refine .pure fun hstill => ?_
      have := hu.2 still rfl
      rw [hstill] at this
      simpa using this.symm

lemma gateList_wp : Wp Quiet gateList (fun els t => ∀ l, els = some l → ∀ a, (t.left a).isSome → a ∈ l.map (·.1)) w := by
  refine .bind (Quiet.wp call_quiet) fun n t _ _ => .bind (Quiet.wp outcomeOf_quiet) fun out u _ _ => ?_
  split
  · exact .pure (by simp)
  refine .read (.pure fun l hl a ha => ?_)
  obtain ⟨r, hr⟩ := Option.isSome_iff_exists.mp ha
  rw [← Option.some.inj hl]
  simp only [List.mem_map, List.mem_filterMap]
  exact ⟨_, ⟨a, mem_keys_of_left ha, by rw [hr]; rfl⟩, rfl⟩

lemma endFlows_gone {ip bridge} : Wp Any (endFlows ip bridge now)
    (fun err t => err = false → ∀ a, namesElement ip bridge a = true → t.left a = none) w := by
  have denied : ∀ (l : List Addr) (u : World), (∀ a, namesElement ip bridge a = true → (u.left a).isSome → a ∈ l) →
      Wp (Side (.revoking fun _ => False)) (l.mapM denyAccess) (fun errs t => (∀ e ∈ errs, e = false) →
        ∀ a, namesElement ip bridge a = true → t.left a = none) u := by
    intro l u hl
    have loop := Wp.collect (R := Side (.revoking fun _ => False)) (f := denyAccess) (l := l) (s := u)
      (fun rest errs t => (∀ e ∈ errs, e = false) → ∀ a, namesElement ip bridge a = true → a ∉ rest → t.left a = none) ?_ ?_
    · exact loop.conseq fun errs t _ h hall a ha => h (by simpa using hall) a ha (by simp)
    · intro b rest errs t ht
      refine denyAccess_gone.conseq fun err v moves hv hall a ha hrest => ?_
      rcases eq_or_ne a b with rfl | hne
      · exact hv (hall err (by simp))
      · exact sides_left_none moves (fun _ => False.elim)
          (ht (fun e he => hall e (by simp [he])) a ha (by simp [hne, hrest]))
    · intro _ a ha hnot
      by_contra hne
      exact hnot (hl a ha (Option.ne_none_iff_isSome.mp hne))
  refine .read (.bind (contRevoke_side rfl (fun _ => trivial) w :
    Wp (Side (.revoking (· = { ip := w.env.ipText (.v4 ip), bridge, revokedAt := now }))) _ _ w).any fun jerr t _ _ => ?_)
  refine .bind gateList_wp.any fun els u _ hu => ?_
  have flush : Steps (Side {}) (perform id) := perform_side fun w => .quiet w.calls w.clock (Nat.le_refl _)
  cases els with
  | none =>
    exact .bind (M := fun _ _ => True) ⟨.single trivial, trivial⟩ fun _ v _ _ =>
      .bind (flush v).any fun _ _ _ _ => .pure (by simp)
  | some l =>
    refine .bind (denied _ u fun a ha hpresent => ?_).any fun errs v _ hv => ?_
    · exact List.mem_filter.mpr ⟨hu l rfl a hpresent, ha⟩
    · refine .bind ((flush v).conseq fun _ _ moves _ => moves).any fun flushErr x _ moves => .pure fun hok a ha => ?_
      simp only [Option.isNone_some, Bool.or_false, Bool.or_eq_false_iff, List.any_eq_false, id_eq, Bool.not_eq_true] at hok
      exact sides_left_none moves (fun _ => False.elim) (hv hok.1.2 a ha)

lemma Passed.left_none (h : Passed env now w w' W w₀ t) (ha : ¬ env.Lists w.env.parseIP a) (hl : w.left a = none) :
    w'.left a = none := by
  have cleared : t.left a = none := moves_left_none h.cleared (fun _ hk => hk.elim) (left_none_later h.begun.kern h.begun.clock hl)
  refine keep (S := fun z => z.left a = none) (fun act hz => act.left_none (fun r _ hr => ?_) hz) h.walked cleared
  rintro rfl
  exact ha (h.lists hr)

def Enforces (w w' : World) : Prop := ∃ new generation hash, w'.log = new ++ w.log ∧ .enforced generation hash ∈ new

lemma Enforced.quelled (h : Enforced env now w w') (hq : Quelled a w) (ha : ¬ env.Lists w.env.parseIP a) :
    Quelled a w' ∧ (∃ new, w'.log = new ++ w.log ∧ Reaches (· ≠ a) new) := by
  cases h with
  | unchanged => exact ⟨hq, [_], rfl, by simp [Reaches]⟩
  | @walked v w₀ t W start deadline hp =>
    have other : ∀ b, env.Lists w.env.parseIP b → b ≠ a := fun b hb hab => ha (hab ▸ hb)
    refine ⟨⟨hp.left_none ha hq.1, fun _ k r hr => other _ (hp.reaches.2 k _ (hp.noted hr))⟩, _, hp.enforced, ?_⟩
    intro k b ttl time left hmem
    simp only [List.mem_append, List.mem_cons, reduceCtorEq, List.not_mem_nil, or_false] at hmem
    exact other b (hp.reaches.1 k b ttl time left hmem)

lemma Enforced.enforces (h : Enforced env now w w') : Enforces w w' := by
  cases h with
  | unchanged => exact ⟨[_], env.planGeneration, env.desiredStateHash, rfl, by simp⟩
  | walked start deadline hp => exact ⟨_, env.planGeneration, env.desiredStateHash, hp.enforced, by simp⟩

lemma Enforces.grow {v new} (h : Enforces w v) (hlog : w'.log = new ++ v.log) : Enforces w w' := by
  obtain ⟨old, generation, hash, hv, hmem⟩ := h
  exact ⟨new ++ old, generation, hash, by rw [hlog, hv, List.append_assoc], List.mem_append_right _ hmem⟩

lemma Quelled.side (h : Quelled a w) (moves : ReflTransGen (Side p) w w') (hp : ∀ r, p.leases r → r.addr ≠ a) :
    Quelled a w' ∧ ∃ new, w'.log = new ++ w.log ∧ Reaches (· ≠ a) new := by
  obtain ⟨new, hlog, -, hreach⟩ := sides_reach (A := (· ≠ a)) moves hp
  exact ⟨⟨sides_left_none moves hp h.1, h.2.side moves⟩, new, hlog, hreach⟩

lemma Restarted.quelled {cfg} (h : Restarted cfg w w') (hl : w.left a = none) :
    Quelled a w' ∧ ∃ new, w'.log = new ++ w.log ∧ Reaches (· ≠ a) new := by
  obtain ⟨hconf, new, hlog, -, hreach⟩ := h.confined (A := (· ≠ a))
  refine ⟨⟨?_, hconf⟩, new, hlog, hreach⟩
  cases h with
  | mk hx moves =>
    exact sides_left_none moves (fun _ => False.elim) (left_none_later hx.kern hx.clock hl)

lemma Quiet.quelled (h : Quiet w w') (hq : Quelled a w) : Quelled a w' := by
  have settled : ReflTransGen (Side {}) w w' := .single h.side
  exact (hq.side settled fun _ => False.elim).1

lemma Stepped.quelled {op} (h : Stepped w op w') (hq : Quelled a w)
    (unlisted : ∀ env, op.plan = some env → Enforces w w' → ¬ env.Lists w.env.parseIP a) :
    Quelled a w' ∧ ∃ new, w'.log = new ++ w.log ∧ Reaches (· ≠ a) new := by
  have nothing : Reaches (· ≠ a) [] := by simp [Reaches]
  cases h with
  | arrived | rescoped | carried => exact ⟨hq, [], rfl, nothing⟩
  | waited ms =>
    refine ⟨Quiet.quelled (.mk w.calls (w.clock + ms) (Nat.le_add_right _ _)) hq, [], rfl, nothing⟩
  | submitted _ hs =>
    cases hs with
    | refused hr =>
      refine ⟨hr.quelled hq, ?_⟩
      obtain ⟨calls, clock, -⟩ := hr
      exact ⟨[], rfl, nothing⟩
    | @admitted _ _ x _ unreadable ha he hsave moves =>
      have hu := ha.quiet.quelled hq
      obtain ⟨calls, clock, -⟩ := ha.quiet
      have hlog : w'.log = [] ++ x.log := (sides_noted moves).1
      obtain ⟨calls', clock', plan, converged, hclock, -, -⟩ := hsave
      obtain ⟨hv, new, hnew, hreach⟩ := he.quelled hu (unlisted _ rfl (he.enforces.grow hlog))
      refine ⟨(Quelled.side ?_ moves fun _ => False.elim).1, new, hlog.trans hnew, hreach⟩
      exact ((Quiet.mk calls' clock' hclock).quelled hv)
  | refused hr hx =>
    have hu := hr.quelled hq
    obtain ⟨calls, clock, -⟩ := hr
    exact hx.quelled hu.1
  | crashed unreadable _ ha he hx =>
    have hu := ha.quiet.quelled hq
    obtain ⟨calls, clock, -⟩ := ha.quiet
    obtain ⟨-, new', hlog', -⟩ := hx.confined (A := (· ≠ a))
    obtain ⟨hv, new, hnew, hreach⟩ := he.quelled hu (unlisted _ rfl (he.enforces.grow hlog'))
    obtain ⟨hw, new'', hlog'', hreach'⟩ := hx.quelled hv.1
    exact ⟨hw, new'' ++ new, by rw [hlog'', hnew, List.append_assoc], hreach'.append hreach⟩
  | restarted hx => exact hx.quelled hq.1
  | rebooted hx => exact hx.quelled (by simp [World.left, Kernel.left])
  | renewed moves => exact hq.side moves fun r hr => hq.2.renews hr
  | endedFlows moves | revoked moves | tickRead moves | tickBegun moves | tickProbed moves =>
    exact hq.side moves fun _ => False.elim
  | tickApplied _ moves =>
    refine hq.side moves fun r hr => ?_
    rintro rfl
    simpa [hq.1] using hr.shown

/-- A step that puts no plan in force which lists the address. -/
def Unlisting (a : Addr) (w : World) (op : Op) (w' : World) : Prop :=
  step w op = some w' ∧ ∀ env, op.plan = some env → Enforces w w' → ¬ env.Lists w.env.parseIP a

lemma run_quelled {ops} (run : Run (Unlisting a) w ops w') (hb : Base w) (hq : Quelled a w) :
    ∃ new, w'.log = new ++ w.log ∧ Reaches (· ≠ a) new := by
  induction run with
  | nil => exact ⟨[], rfl, by simp [Reaches]⟩
  | cons st _ ih =>
    have stepped := step_stepped hb st.1
    obtain ⟨hq', new, hlog, hreach⟩ := stepped.quelled hq st.2
    obtain ⟨new', hlog', hreach'⟩ := ih (stepped.base hb) hq'
    exact ⟨new' ++ new, by rw [hlog', hlog, List.append_assoc], hreach'.append hreach⟩

/-- A request that revokes the address, and succeeds. -/
def Op.revokes (w : World) (a : Addr) : Op → Prop
  | .endFlows ip bridge now => namesElement ip bridge a = true ∧ ((Netd.endFlows ip bridge now).run w).1 = false
  | .continuityRevoke ss es ip bridge now => ip ≠ [] ∧ w.env.parseIP ip = some a.ip ∧ (bridge = [] ∨ bridge = a.bridge) ∧
    ((Netd.continuityRevoke ss es ip bridge now).run w).1 = false
  | _ => False

/-- After a successful revocation of an address that no clean walk remembers (and, for a continuity
revocation, whose element is gone), no lease is written for it before a plan that lists it is put in force. -/
theorem revocation_final {ops ops' : List Op} {op : Op} {w'' : World} (started : Started w₀)
    (run : Run (ofOption step) w₀ ops w) (revoked : step w op = some w') (success : op.revokes w a)
    (forgotten : Confined (· ≠ a) w)
    (gone : ∀ ss es ip bridge now, op = .continuityRevoke ss es ip bridge now → w'.left a = none)
    (later : Run (Unlisting a) w' ops' w'') :
    ∃ new, w''.log = new ++ w'.log ∧ ∀ k ttl time left, .authorized k a ttl time left ∉ new := by
  have base := run_base run started.base
  have stepped := step_stepped base revoked
  have hq : Quelled a w' := by
    cases op with
    | endFlows ip bridge now =>
      have hw' : w' = ((endFlows ip bridge now).run w).2 := by
        unfold step at revoked
        split at revoked
        · exact (Option.some.inj revoked).symm
        · cases revoked
      refine ⟨?_, ?_⟩
      · rw [hw']
        exact endFlows_gone.2 success.2 a success.1
      · cases stepped with
        | endedFlows moves => exact forgotten.side moves
    | continuityRevoke ss es ip bridge now =>
      refine ⟨gone ss es ip bridge now rfl, ?_⟩
      cases stepped with
      | revoked moves => exact forgotten.side moves
    | _ => exact success.elim
  obtain ⟨new, hlog, hreach⟩ := run_quelled later (stepped.base base) hq
  exact ⟨new, hlog, fun k ttl time left hmem => hreach k a ttl time left hmem rfl⟩

end

/-- The walk reported an entry it could not use, so the timer has nothing to renew: the revoked guest stays
away. -/
theorem revocation_final_after_failure : ∃ w w' w'', Run (ofOption step) (Env.calm.start false)
      (planned 1 1000 [guest 'a' '1', guest 'b' '9']) w ∧ w.left addrOne = some (some 90000) ∧
    step w (.endFlows 0x0a000005#32 [] 1500) = some w' ∧ step w' (.renewDue 2000) = some w'' ∧
    ∃ new, w''.log = new ++ w'.log ∧ ∀ k ttl time left, .authorized k addrOne ttl time left ∉ new := by
  obtain ⟨w, w', run, ended, hw⟩ := exists_last (f := step) (s := Env.calm.start false)
    (l := planned 1 1000 [guest 'a' '1', guest 'b' '9']) (a := .endFlows 0x0a000005#32 [] 1500)
    (P := fun w w' => w.left addrOne = some (some 90000) ∧ w.mem.memo.clean = false ∧
      ((endFlows 0x0a000005#32 [] 1500).run w).1 = false) (by decide +kernel)
  obtain ⟨hleft, hclean, hok⟩ := of_decide_eq_true hw
  have timer : step w' (.renewDue 2000) = some ((carryOut (.renewDue 2000)).run w').2 := rfl
  refine ⟨w, w', _, run, hleft, ended, timer, ?_⟩
  refine revocation_final (Env.calm.started false) run ended ⟨by decide, hok⟩ ?_ (fun _ _ _ _ _ h => nomatch h)
    (.cons ⟨timer, fun _ h => nomatch h⟩ (.nil _))
  intro h
  rw [hclean] at h
  cases h

/-- Half a second after a clean walk a guest is disconnected; the next round of the timer authorizes them
again. -/
theorem disconnected_guest_comes_back : ∃ w w' w'', Run (ofOption step) (Env.calm.start false)
      (planned 1 1000 [guest 'a' '1']) w ∧ step w (.endFlows 0x0a000005#32 [] 1500) = some w' ∧
    ((endFlows 0x0a000005#32 [] 1500).run w).1 = false ∧ w'.left addrOne = none ∧
    step w' (.renewDue 2000) = some w'' ∧ w''.left addrOne = some (some 89000) := by
  obtain ⟨w, w', run, ended, hw⟩ := exists_last (f := step) (s := Env.calm.start false)
    (l := planned 1 1000 [guest 'a' '1']) (a := .endFlows 0x0a000005#32 [] 1500)
    (P := fun w w' => ((endFlows 0x0a000005#32 [] 1500).run w).1 = false ∧ w'.left addrOne = none ∧
      ((carryOut (.renewDue 2000)).run w').2.left addrOne = some (some 89000)) (by decide +kernel)
  obtain ⟨hok, hgone, hback⟩ := of_decide_eq_true hw
  exact ⟨w, w', _, run, ended, hok, hgone, rfl, hback⟩

end StayConnect.Netd
