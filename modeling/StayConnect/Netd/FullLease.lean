import StayConnect.Netd.Operations

/-!
# Full leases

A lease longer than the provisional one is for sessions whose durable activation was proven. A pass writes
one only for a session proven for its current class generation; the lease timer writes one for every
session the last clean pass remembered, so it keeps to that as far as the memo does (`Remembered`).
-/

namespace StayConnect.Netd

open Framing Prog Relation Transition

/-- Every lease on the record longer than the provisional one was written for a session proven then. -/
def Sound : List Event → Prop
  | [] => True
  | .authorized k _ ttl _ _ :: before => (ttl ≤ phase3ProvisionalLease ∨ Proven before k) ∧ Sound before
  | _ :: before => Sound before

/-- The sessions a clean pass left for the timer are proven. -/
def Remembered (w : World) : Prop :=
  w.mem.memo.clean = true → ∀ k r, w.mem.memo.renewable.lookup k = some r → Proven w.log k

section
variable {W : Walk} {o : Scope} {w w' : World}

lemma Sound.authorized {after before k a ttl time left} (h : Sound (after ++ .authorized k a ttl time left :: before)) : ttl ≤ phase3ProvisionalLease ∨ Proven before k := by
  induction after with
  | nil => exact h.1
  | cons e rest ih =>
    cases e with
    | authorized => exact ih h.2
    | _ => exact ih h

lemma Sound.append {new log} (h : Sound log) (hnew : ∀ k a ttl time left, .authorized k a ttl time left ∉ new) :
    Sound (new ++ log) := by
  induction new with
  | nil => exact h
  | cons e rest ih =>
    have := ih fun k a ttl time left hmem => hnew k a ttl time left (by simp [hmem])
    cases e with
    | authorized k a ttl time left => exact absurd (by simp) (hnew k a ttl time left)
    | _ => exact this

lemma Proven.append {log k} (h : Proven log k) (new : List Event) (old : ∀ k e, .admitted k e ∉ new) : Proven (new ++ log) k := by
  obtain ⟨e, he, hb⟩ := h
  exact ⟨e, (generation_append old).trans he, hb.imp (List.mem_append_right _) (List.mem_append_right _)⟩

lemma Act.keep_sound (h : Act o w w') (ho : o.once) (hs : Sound w.log) : Sound w'.log := by
  cases h with
  | idle h => exact h.log ▸ hs
  | authorized r _ _ hl =>
    refine ⟨(hl.proven ho).imp_left fun hle => ?_, hs⟩
    exact Nat.le_trans (by simp only [wholeSeconds]; omega) hle
  | _ => exact hs

lemma PassAct.keep_sound (h : PassAct W o w w') (ho : o.once) (hs : Sound w.log) : Sound w'.log := by
  cases h with
  | act h => exact h.keep_sound ho hs
  | _ => exact hs

lemma Passed.sound {env now w₀ t} (h : Passed env now w w' W w₀ t) (ho : W.once) (hs : Sound w.log) : Sound w'.log := by
  have begun : Sound w₀.log := by
    rw [h.begun.log]
    exact hs
  have cleared : Sound t.log := keep (S := fun z => Sound z.log) (fun act h => act.keep_sound ho h) h.cleared begun
  exact keep (S := fun z => Sound z.log) (fun act h => act.keep_sound ho h) h.walked cleared

/-- Each session is listed once. -/
def Distinct (sessions : List Session) : Prop := ∀ s ∈ sessions, ∀ s' ∈ sessions, s.key = s'.key → s = s'

lemma single_of_distinct {ctx sessions} (h : Distinct sessions) : Single (claimsOf ctx sessions).desired := by
  intro slot slot' x x' hx hx' hk
  obtain ⟨hs, hc⟩ := claims_spec (desired_claimed hx)
  obtain ⟨hs', hc'⟩ := claims_spec (desired_claimed hx')
  have same : x.s = x'.s := h _ hs _ hs' hk
  refine hc.slot_of_addr hc' ?_
  have hip : some x.addr.ip = some x'.addr.ip := by rw [← hc.parsed, ← hc'.parsed, same]
  have hbridge : x.addr.bridge = x'.addr.bridge := by rw [hc.bridge, hc'.bridge, ← hc.device, ← hc'.device, same]
  have ext : ∀ a b : Addr, a.bridge = b.bridge → a.ip = b.ip → a = b := by
    rintro ⟨_, _⟩ ⟨_, _⟩ rfl rfl
    rfl
  exact ext _ _ hbridge (Option.some.inj hip)

lemma Enforced.sound {env now} (h : Enforced env now w w') (hd : Distinct env.sessions) (hs : Sound w.log) : Sound w'.log := by
  cases h with
  | unchanged => exact hs
  | walked start deadline hp => exact hp.sound (hp.walk ▸ single_of_distinct hd) hs

variable {p : Powers}

lemma sides_sound (moves : ReflTransGen (Side p) w w') (hp : ∀ r, p.leases r → Proven w.log r.key) (hs : Sound w.log) :
    Sound w'.log ∧ ∀ k, Proven w.log k → Proven w'.log k := by
  refine keep (S := fun t => Sound t.log ∧ ∀ k, Proven w.log k → Proven t.log k) (fun {t t'} act h => ?_) moves ⟨hs, fun _ => id⟩
  cases act with
  | wrote r hr =>
    refine ⟨⟨.inr (h.2 _ (hp r hr)), h.1⟩, fun k hk => ?_⟩
    exact (h.2 k hk).append [_] (by simp)
  | erased a => exact ⟨h.1, fun k hk => (h.2 k hk).append [_] (by simp)⟩
  | _ => exact h

lemma Remembered.side (h : Remembered w) (moves : ReflTransGen (Side p) w w')
    (proven : ∀ k, Proven w.log k → Proven w'.log k) : Remembered w' := by
  obtain ⟨c, hc⟩ := (sides_settled moves).mem
  unfold Remembered
  rw [hc]
  exact fun hclean k r hr => proven k (h hclean k r hr)

lemma Restarted.sound {cfg} (h : Restarted cfg w w') (hs : Sound w.log) : Sound w'.log ∧ Remembered w' := by
  cases h with
  | mk hx moves =>
    obtain ⟨new, hlog, hnew⟩ := hx.log
    refine ⟨(sides_sound moves (fun _ => False.elim) ?_).1, fun hclean => ?_⟩
    · rw [hlog]
      refine hs.append fun k a ttl time left hmem => ?_
      obtain ⟨k', n, he⟩ := hnew _ hmem
      cases he
    · obtain ⟨c, hc⟩ := (sides_settled moves).mem
      rw [hc, hx.memo] at hclean
      cases hclean

def Op.plan : Op → Option Envelope
  | .submit env _ | .crash env _ _ => some env
  | _ => none

/-- A step under which the proof of every full lease can be shown: plans list a session once, no answer
fetched for one class generation is taken for another, and a clean pass remembers proven sessions only. -/
structure Careful (w : World) (op : Op) (w' : World) : Prop where
  stepped : step w op = some w'
  timer : op ≠ .tickApply
  once : ∀ env, op.plan = some env → Distinct env.sessions
  fresh : ∀ k e, .stale k e ∈ w'.log → .stale k e ∈ w.log
  proved : ∀ env now, op = .submit env now → Remembered w'

lemma Careful.sound {op} (h : Careful w op w') (hb : Base w) (hs : Sound w.log) (hr : Remembered w) : Sound w'.log ∧ Remembered w' := by
  cases step_stepped hb h.stepped with
  | submitted _ hsub =>
    refine ⟨?_, h.proved _ _ rfl⟩
    cases hsub with
    | refused hq =>
      obtain ⟨calls, clock, -⟩ := hq
      exact hs
    | admitted unreadable ha he hsave moves =>
      obtain ⟨calls, clock, -⟩ := ha.quiet
      obtain ⟨calls', clock', plan, converged, -, -, -⟩ := hsave
      exact (sides_sound moves (fun _ => False.elim) (he.sound (h.once _ rfl) hs)).1
  | refused hq hx =>
    obtain ⟨calls, clock, -⟩ := hq
    exact hx.sound hs
  | crashed unreadable _ ha he hx =>
    obtain ⟨calls, clock, -⟩ := ha.quiet
    exact hx.sound (he.sound (h.once _ rfl) hs)
  | restarted hx | rebooted hx => exact hx.sound hs
  | renewed moves =>
    have proven : ∀ r, w.mem.renews r → Proven w.log r.key := by
      rintro r ⟨hplan, s, hs, -⟩
      refine hr ?_ _ s hs
      by_contra hclean
      simp [Mem.renewsUnder, hclean] at hplan
    obtain ⟨hs', hmono⟩ := sides_sound moves proven hs
    exact ⟨hs', hr.side moves hmono⟩
  | endedFlows moves | revoked moves | tickRead moves | tickBegun moves | tickProbed moves =>
    obtain ⟨hs', hmono⟩ := sides_sound moves (fun _ => False.elim) hs
    exact ⟨hs', hr.side moves hmono⟩
  | tickApplied => exact absurd rfl h.timer
  | arrived | rescoped | waited | carried => exact ⟨hs, hr⟩

end

/-- The configuration of that machine. -/
def Config.calm : Config := ⟨⟨true, ['t'], ['s'], ['a'], 0⟩, true, false⟩

end StayConnect.Netd
