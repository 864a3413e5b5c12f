import StayConnect.Commerce.Serial

/-!
# A package granted once

A rule that forbids an earlier purchase is asked when a quote is made, and not again. Each quote carries, as a ghost, how many
entitlements its history check has seen. As long as no quote of the package is confirmed that a grant of the package to the
same subject has overtaken, the subject gets at most one; a quote that was overtaken and is confirmed all the same gets a second.
-/

namespace StayConnect.Commerce
open Iam Tx Interleave Transition

/-- The rule on the history forbids an earlier purchase, at any time. -/
def onceOnly (rules : List EligibilityRule) : Bool :=
  ((rules.find? fun r => upperTrim r.type = "PRIOR_PURCHASE").any fun r => Fields.bool r.value "forbids_prior" = some true) &&
    (priorPurchasePolicyOf rules 0).any (·.withinHours ≤ 0)

def Catalogue.OnceOnly (cat : Catalogue) (package : Nat) : Prop :=
  ∀ r ∈ cat.revisions, r.packageID = package → onceOnly (cat.rules r.id) = true

/-- A package for an account or a principal. -/
structure Benefit where
  scope : Scope
  subject : Subject
  package : Nat
  named : subject.kind = .account ∨ subject.kind = .principal

def Benefit.covers (b : Benefit) (cat : Catalogue) (e : Entitlement) : Bool :=
  e.scope = b.scope && e.subject = b.subject && cat.packageOf e.packageRevision = some b.package

section
variable {e : Engine} {cat : Catalogue} {db : Db} {b : Benefit}

lemma eligible_each {rfc3339 rules s}
    (h : evaluatePackageEligible rfc3339 rules s = .ok ()) : ∀ r ∈ rules, evalTypedCondition rfc3339 r.type r.value s = .ok () := by
  induction rules with
  | nil => exact fun _ h => (nomatch h)
  | cons r rest ih =>
    unfold evaluatePackageEligible at h
    split at h
    case h_1 passes => exact List.forall_mem_cons.mpr ⟨passes, ih h⟩
    case h_2 => cases h

lemma evalPriorPurchase_forbids {v prior} (h : evalPriorPurchase v prior = .ok ())
    (forbids : Fields.bool v "forbids_prior" = some true) : prior = false := by
  simp only [evalPriorPurchase, forbids, require] at h
  split at h
  · cases h
  split at h
  · cases h
  split at h
  · cases h
  · split at h
    case isTrue passes => simpa using passes
    · cases h

lemma onceOnly_passes {rfc3339 rules s}
    (once : onceOnly rules = true) (h : evaluatePackageEligible rfc3339 rules s = .ok ()) : s.hasPriorPurchaseOfPackage = false := by
  simp only [onceOnly, Bool.and_eq_true, Option.any_eq_true, decide_eq_true_eq] at once
  obtain ⟨⟨r, found, forbids⟩, -⟩ := once
  have type : ruleType r.type = some .priorPurchase := by
    have own : upperTrim r.type = "PRIOR_PURCHASE" := by simpa using List.find?_some found
    rw [ruleType, own]
    decide
  have passes := eligible_each h r (List.mem_of_find?_eq_some found)
  simp only [evalTypedCondition, type] at passes
  exact evalPriorPurchase_forbids passes forbids

/-- A history without a window that finds nothing: the subject has no entitlement of the package. -/
lemma priorPurchase_clear {scope pkg ac now}
    (once : onceOnly (cat.rules pkg.id) = true) (clear : priorPurchase cat db scope pkg ac now = false)
    (subject : ac.subject = b.subject) (own : scope = b.scope) (package : pkg.packageID = b.package) :
    ∀ x ∈ db.entitlements, b.covers cat x = false := by
  intro x mem
  refine Bool.eq_false_iff.mpr fun covered => ?_
  simp only [Benefit.covers, Bool.and_eq_true, decide_eq_true_eq] at covered
  simp only [onceOnly, Bool.and_eq_true, Option.any_eq_true, decide_eq_true_eq, priorPurchasePolicyOf, Option.map_eq_some_iff] at once
  obtain ⟨-, _, ⟨r, found, rfl⟩, window⟩ := once
  have named : ac.subject.kind ≠ .voucher ∧ Db.bySubject ac.subject x = true := by
    rw [subject]
    have kinds := b.named
    cases who : b.subject <;> simp [who, Subject.kind, Db.bySubject, covered.1.2] at kinds ⊢
  simp only [priorPurchase, priorPurchasePolicyOf, found, Option.map_some, PriorPurchasePolicy.forSubject, named.1, if_false,
    Db.hasPriorPurchase, if_neg (not_lt.mpr window)] at clear
  have missed := List.any_eq_false.mp clear x (List.mem_filter.mpr ⟨mem, ?_⟩)
  · simp [named.2] at missed
  · simp [Db.ofPackage, covered.1.1, covered.2, own, package]

lemma packageOf_eq {r} (mem : r ∈ cat.revisions) : cat.packageOf r.id = some r.packageID := by
  have found : cat.revisions.find? (fun x => decide (x.id = r.id)) = some r :=
    Keyed.find?_unique mem (by simp) fun y hy same => List.inj_on_of_nodup_map cat.revisionIDs hy mem (of_decide_eq_true same)
  rw [Catalogue.packageOf, found]
  rfl

lemma quotedPackage_mem {now scope ac package pkg} (h : quotedPackage cat db now scope ac package = .ok pkg) :
    ∃ r ∈ cat.revisions, pkg.id = r.id ∧ pkg.packageID = r.packageID := by
  unfold quotedPackage at h
  split at h
  · simp only [ok_bind_iff, need_ok, refuse_ok] at h
    obtain ⟨_, -, _, loaded, -, -, ⟨⟩⟩ := h
    obtain ⟨r, found, row⟩ := Option.bind_eq_some_iff.mp loaded
    obtain ⟨_, -, rfl⟩ := Option.map_eq_some_iff.mp row
    exact ⟨r, List.mem_of_find?_eq_some found, rfl, rfl⟩
  · simp only [ok_bind_iff, need_ok, refuse_ok] at h
    obtain ⟨_, -, _, resolved, -, -, -, -, -, -, ⟨⟩⟩ := h
    obtain ⟨_, -, current⟩ := Option.bind_eq_some_iff.mp resolved
    obtain ⟨r, found, rfl⟩ := Option.map_eq_some_iff.mp current
    exact ⟨r, List.mem_of_find?_eq_some found, rfl, rfl⟩

end

/-- Of the entitlements the quote has seen, none is of the package for the subject. -/
def Aged (b : Benefit) (cat : Catalogue) (db : Db) (q : OfferQuote) (subject : Subject) : Prop :=
  q.seen ≤ db.entitlements.length ∧ (subject = b.subject → q.scope = b.scope → cat.packageOf q.packageRevision = some b.package →
    ∀ x ∈ db.entitlements.take q.seen, b.covers cat x = false)

/-- The quote was made for a sign-in, under the history of its subject. -/
def Issued (b : Benefit) (cat : Catalogue) (db : Db) (q : OfferQuote) : Prop :=
  ∃ ac, db.authContext q.authContext = some ac ∧ Aged b cat db q ac.subject

def Benefit.Sought (b : Benefit) (cat : Catalogue) (c : Confirm) : Prop :=
  c.request.scope = b.scope ∧ c.context.subject = b.subject ∧ cat.packageOf c.quote.packageRevision = some b.package

instance (b : Benefit) (cat : Catalogue) (c : Confirm) : Decidable (b.Sought cat c) := inferInstanceAs (Decidable (_ ∧ _ ∧ _))

/-- The subject of a confirm for the package has none of it. -/
def Clear (b : Benefit) (cat : Catalogue) (db : Db) (c : Confirm) : Prop :=
  b.Sought cat c → ∀ x ∈ db.entitlements, b.covers cat x = false

/-- The auth context of a confirm still names its subject. -/
def Bound (db : Db) (c : Confirm) : Prop := ∃ ac, db.authContext c.context.id = some ac ∧ ac.subject = c.context.subject

def Unbought (db : Db) (c : Confirm) : Prop := ∀ p ∈ db.purchases, p.id ≠ c.request.purchase

/-- A grant for what its confirm asked for. -/
structure Granting (b : Benefit) (cat : Catalogue) (db : Db) (g : Grant) (k : Kernel) (c : Confirm) : Prop where
  confirm : g.confirm = some c
  scope : g.scope = c.request.scope
  subject : k.subject = c.context.subject
  revision : k.packageRevision = c.quote.packageRevision
  clear : Clear b cat db c

/-- What a process knows of the history, where it stands. -/
def Phase.Knows (b : Benefit) (cat : Catalogue) (db : Db) : Phase → Prop
  | .insertQuote q | .finish (.quoted q) => Issued b cat db q
  | .lockContext r q _ => Issued b cat db q ∧ q.scope = r.scope
  | .lockSubject c => Aged b cat db c.quote c.context.subject ∧ c.quote.scope = c.request.scope ∧ Bound db c
  | .consumeQuote c | .consumeContext c | .insertPurchase c => Clear b cat db c ∧ Bound db c
  | .insertSettlement c => Clear b cat db c ∧ Bound db c ∧ Unbought db c
  | .lockSettlement _ _ => False
  | .lockPurchase g _ key => ∃ c, g.confirm = some c ∧ g.scope = c.request.scope ∧ key = c.request.purchase ∧
      Clear b cat db c ∧ Bound db c ∧ Unbought db c
  | .pinned g k | .lockGrantee g k | .existing g k | .supersede g k | .insertEntitlement g k _ | .burn g k _ | .markGranted g k _
  | .finish (.granted g k _) => ∃ c, Granting b cat db g k c
  | _ => True

/-- At most one entitlement of the package for the subject, and every quote is aged. -/
structure Once (b : Benefit) (cat : Catalogue) (db : Db) : Prop where
  single : (db.entitlements.filter (b.covers cat)).length ≤ 1
  quotes : ∀ q ∈ db.quotes, Issued b cat db q

section
variable {e : Engine} {cat : Catalogue} {db db' : Db} {b : Benefit} {held : List Lock}

variable {q : OfferQuote} {c : Confirm} {g : Grant} {k : Kernel}

lemma createQuote_issued (once : cat.OnceOnly b.package) {now req package method id}
    (h : createQuote e cat db now req package method id = .ok q) : Issued b cat db q := by
  simp only [createQuote, ok_bind_iff, refuse_ok, need_ok, mapError_ok] at h
  obtain ⟨-, -, -, -, ac, loaded, -, -, -, -, -, -, pkg, quoted, m, -, cur, -, snap, hsnap, ⟨⟩⟩ := h
  obtain ⟨key, -, loaded⟩ := Option.bind_eq_some_iff.mp loaded
  have row := (Option.filter_eq_some_iff.mp loaded).1
  have own : ac.id = key := (Keyed.lookup_mem row).2
  refine ⟨ac, own ▸ row, le_rfl, fun subject scope revision => ?_⟩
  simp only [quotedSnapshot, ok_bind_iff, refuse_ok, mapError_ok, need_ok, refuseAny_ok] at hsnap
  obtain ⟨plan, -, ⟨⟩, rules, -⟩ := hsnap
  obtain ⟨r, mem, id, packageID⟩ := quotedPackage_mem quoted
  have package : r.packageID = b.package := by
    rw [id, packageOf_eq mem] at revision
    exact Option.some.inj revision
  have rule : onceOnly (cat.rules pkg.id) = true := id ▸ once r mem package
  rw [List.take_length]
  exact priorPurchase_clear rule (onceOnly_passes rule rules) subject scope (packageID.trans package)

def Benefit.lock (b : Benefit) : Lock := .subject b.scope b.subject.kind b.subject.id

/-- A new entitlement of the package for the subject comes under the lock of its confirms. -/
def Adds (b : Benefit) (cat : Catalogue) (held : List Lock) (db db' : Db) : Prop :=
  ∀ x ∈ db'.entitlements, b.covers cat x = true → (∃ y ∈ db.entitlements, b.covers cat y = true) ∨ b.lock ∈ held

lemma Touches.authContext (touches : Touches held db db') {id ac} (h : db.authContext id = some ac) :
    ∃ ac', db'.authContext id = some ac' ∧ ac'.subject = ac.subject := by
  obtain ⟨f, new, eq, changes⟩ := touches.contexts
  have same : ∀ x, (f x).id = x.id ∧ (f x).subject = x.subject := by
    intro x
    rcases changes x with e | ⟨-, t, e⟩ <;> simp [e]
  refine ⟨f ac, ?_, (same ac).2⟩
  unfold Db.authContext at h ⊢
  rw [eq, Keyed.lookup_append, Keyed.lookup_map fun x => (same x).1, h]
  rfl

lemma Aged.touched {subject} (h : Aged b cat db q subject) (touches : Touches held db db') : Aged b cat db' q subject := by
  obtain ⟨f, new, eq, changes, -⟩ := touches.entitlements
  have covers : ∀ x, b.covers cat (f x) = b.covers cat x := by
    intro x
    rcases changes x with e | e <;> rw [e]
    rfl
  refine ⟨?_, fun own scope package x hx => ?_⟩
  · rw [eq, List.length_append, List.length_map]
    exact Nat.le_add_right_of_le h.1
  · rw [eq, List.take_append_of_le_length (by simpa using h.1), ← List.map_take] at hx
    obtain ⟨y, hy, rfl⟩ := List.mem_map.mp hx
    rw [covers]
    exact h.2 own scope package y hy

lemma Issued.touched (h : Issued b cat db q) (touches : Touches held db db') : Issued b cat db' q := by
  obtain ⟨ac, row, aged⟩ := h
  obtain ⟨ac', row', same⟩ := touches.authContext row
  exact ⟨ac', row', same ▸ aged.touched touches⟩

lemma Bound.touched (h : Bound db c) (touches : Touches held db db') : Bound db' c := by
  obtain ⟨ac, row, own⟩ := h
  obtain ⟨ac', row', same⟩ := touches.authContext row
  exact ⟨ac', row', same.trans own⟩

lemma Unbought.touched (h : Unbought db c) (touches : Touches held db db')
    (apart : Lock.purchase c.request.purchase ∉ held) : Unbought db' c := by
  obtain ⟨f, new, eq, ids, locked⟩ := touches.purchases
  intro p hp
  rw [eq] at hp
  rcases List.mem_append.mp hp with old | fresh
  · obtain ⟨p₀, mem, rfl⟩ := List.mem_map.mp old
    rw [ids]
    exact h p₀ mem
  · rintro same
    exact apart (same ▸ locked p fresh)

lemma Clear.touched (h : Clear b cat db c) (adds : Adds b cat held db db')
    (apart : Lock.subject c.request.scope c.context.subject.kind c.context.subject.id ∉ held) : Clear b cat db' c := by
  intro sought x hx
  refine Bool.eq_false_iff.mpr fun covered => ?_
  rcases adds x hx covered with ⟨y, hy, old⟩ | lock
  · rw [h sought y hy] at old
    cases old
  · unfold Benefit.lock at lock
    rw [← sought.1, ← sought.2.1] at lock
    exact apart lock

lemma Granting.locks (h : Granting b cat db g k c) : ∀ l ∈ c.locks, l ∈ g.locks := by
  intro l hl
  unfold Grant.locks
  rw [h.confirm]
  exact List.mem_cons_of_mem _ hl

lemma Granting.touched (h : Granting b cat db g k c) (adds : Adds b cat held db db')
    (apart : ∀ l ∈ g.locks, l ∉ held) : Granting b cat db' g k c :=
  { h with clear := h.clear.touched adds (apart _ (h.locks _ (by simp [Confirm.locks]))) }

lemma Phase.Knows.touched {here : Phase} (knows : here.Knows b cat db) (touches : Touches held db db') (adds : Adds b cat held db db')
    (apart : ∀ l ∈ here.locks, l ∉ held) : here.Knows b cat db' := by
  cases here with
  | insertQuote q => exact Issued.touched knows touches
  | lockContext r q method => exact ⟨knows.1.touched touches, knows.2⟩
  | lockSubject c => exact ⟨knows.1.touched touches, knows.2.1, knows.2.2.touched touches⟩
  | consumeQuote c | consumeContext c | insertPurchase c =>
    exact ⟨knows.1.touched adds (apart _ (by simp [Phase.locks, Confirm.locks])), knows.2.touched touches⟩
  | insertSettlement c =>
    exact ⟨knows.1.touched adds (apart _ (by simp [Phase.locks, Confirm.bought, Confirm.locks])), knows.2.1.touched touches,
      knows.2.2.touched touches (apart _ (by simp [Phase.locks, Confirm.bought]))⟩
  | lockSettlement g key => exact knows
  | lockPurchase g se key =>
    obtain ⟨c, confirm, scope, own, clear, bound, unbought⟩ := knows
    have held : ∀ l ∈ c.bought, l ∈ (Phase.lockPurchase g se key).locks := by simp [Phase.locks, Grant.locks, confirm]
    exact ⟨c, confirm, scope, own, clear.touched adds (apart _ (held _ (by simp [Confirm.bought, Confirm.locks]))),
      bound.touched touches, unbought.touched touches (apart _ (held _ (by simp [Confirm.bought])))⟩
  | pinned g k | lockGrantee g k =>
    obtain ⟨c, granting⟩ := knows
    exact ⟨c, granting.touched adds fun l hl => apart l (List.mem_cons_of_mem _ hl)⟩
  | existing g k | supersede g k | insertEntitlement g k superseded | burn g k superseded =>
    obtain ⟨c, granting⟩ := knows
    exact ⟨c, granting.touched adds fun l hl => apart l (List.mem_cons_of_mem _ (List.mem_cons_of_mem _ hl))⟩
  | markGranted g k superseded =>
    obtain ⟨c, granting⟩ := knows
    exact ⟨c, granting.touched adds fun l hl =>
      apart l (List.mem_append_right _ (List.mem_cons_of_mem _ (List.mem_cons_of_mem _ hl)))⟩
  | finish o =>
    cases o with
    | quoted q => exact Issued.touched knows touches
    | granted g k superseded =>
      obtain ⟨c, granting⟩ := knows
      exact ⟨c, granting.touched adds fun l hl =>
        apart l (List.mem_append_right _ (List.mem_cons_of_mem _ (List.mem_cons_of_mem _ hl)))⟩
    | _ => trivial
  | _ => trivial

lemma kernelFor_subject {se pu} (h : kernelFor g se db pu = .ok k) (stay : pu.stay = none) : k.packageRevision = pu.packageRevision ∧
      ∃ ac, db.authContext pu.authContext = some ac ∧ k.subject = ac.subject := by
  have walkIn {ac : AuthContext} {subject : Subject} (h : ac.walkIn = some subject) : subject = ac.subject := by
    unfold AuthContext.walkIn at h
    split at h <;> simp_all
  unfold kernelFor at h
  split at h
  case h_1 =>
    simp only [grantQuoted, evidence, ok_bind_iff, need_ok] at h
    obtain ⟨_, -, -, -, _, ⟨q, -, ac, loaded, ⟨⟩⟩, -, -, subject, named, ⟨⟩⟩ := h
    exact ⟨rfl, ac, (Option.filter_eq_some_iff.mp loaded).1, walkIn named⟩
  case h_2 =>
    simp only [grantVoucher, evidence, ok_bind_iff, need_ok] at h
    obtain ⟨-, -, _, -, -, -, _, ⟨q, -, ac, loaded, ⟨⟩⟩, -, -, ⟨⟩⟩ := h
    exact ⟨rfl, ac, (Option.filter_eq_some_iff.mp loaded).1, rfl⟩
  case h_3 =>
    simp only [grantPaid, evidence, ok_bind_iff, need_ok] at h
    obtain ⟨-, -, _, ⟨q, -, ac, loaded, ⟨⟩⟩, -, -, -, -, subject, named, ⟨⟩⟩ := h
    refine ⟨rfl, ac, (Option.filter_eq_some_iff.mp loaded).1, ?_⟩
    split at named
    · simp [stay] at named
    · exact walkIn named
  case h_4 => cases h

lemma Unbought.purchase (h : Unbought db c) : (c.writes db).purchase c.request.scope c.request.purchase = some c.purchaseRow := by
  have old : db.purchases.find? (fun p => decide (p.scope = c.request.scope ∧ p.id = c.request.purchase)) = none :=
    List.find?_eq_none.mpr fun p hp => by simp [h p hp]
  change (db.purchases ++ [c.purchaseRow]).find? _ = some c.purchaseRow
  rw [List.find?_append, old]
  simp [Confirm.purchaseRow]

/-- Where a confirm takes the lock of its subject, no grant of the package to the subject has come after its quote. -/
def notOvertaken (b : Benefit) (cat : Catalogue) (p : Process Db Lock Phase) (db : Db) (_ : Unit) : Bool :=
  match p.here with
  | .lockSubject c => !decide (b.Sought cat c) || (db.entitlements.drop c.quote.seen).all fun x => !b.covers cat x
  | _ => true

lemma Phase.Knows.statement (once : cat.OnceOnly b.package) {p next locks write} (holds : Once b cat db) (knows : p.here.Knows b cat db) (guard : notOvertaken b cat p db () = true)
    (h : Statement e cat (p.here.writes db) p.here locks write next) : next.Knows b cat db := by
  obtain ⟨here, writes, held⟩ := p
  cases h with
  | quoteStopped _ _ stop | contextStopped _ _ _ _ stop => cases stop <;> trivial
  | quote t q made => exact createQuote_issued once made
  | insertQuote q | consumeQuote c | consumeContext c | pinned g k | lockGrantee g k | existing g k | supersede g k | insertEntitlement g k | burn g k | markGranted g k =>
    exact knows
  | lockQuote r q method key found =>
    have own := List.find?_some found
    simp only [decide_eq_true_eq] at own
    exact ⟨holds.quotes q (List.mem_of_find?_eq_some found), own.1⟩
  | lockContext r q method ac found usable =>
    obtain ⟨⟨ac', row, aged⟩, scope⟩ := knows
    have row' := (Option.filter_eq_some_iff.mp found).1
    obtain rfl : ac' = ac := Option.some.inj (row.symm.trans row')
    refine ⟨aged, scope, ac', ?_, rfl⟩
    rw [(Keyed.lookup_mem row).2]
    exact row
  | lockSubject c =>
    obtain ⟨aged, scope, bound⟩ := knows
    refine ⟨fun sought x hx => ?_, bound⟩
    rw [← List.take_append_drop c.quote.seen db.entitlements] at hx
    rcases List.mem_append.mp hx with before | since
    · exact aged.2 sought.2.1 (scope.trans sought.1) sought.2.2 x before
    · simp only [notOvertaken, sought, decide_true, Bool.not_true, Bool.false_or, List.all_eq_true, Bool.not_eq_true'] at guard
      exact guard x since
  | insertPurchase c fresh => exact ⟨knows.1, knows.2, fresh⟩
  | insertSettlement c =>
    obtain ⟨clear, bound, unbought⟩ := knows
    unfold afterSettlement
    split
    · exact ⟨c, rfl, rfl, rfl, clear, bound, unbought⟩
    · exact ⟨c, rfl, rfl, rfl, clear, bound, unbought⟩
    · trivial
    · trivial
  | lockSettlement g key se => exact absurd knows id
  | lockPurchase g se key pu k found kernel =>
    obtain ⟨c, confirm, scope, rfl, clear, ⟨ac, row, own⟩, unbought⟩ := knows
    have view : (Phase.lockPurchase g se c.request.purchase).writes db = c.writes db := by
      simp [Phase.writes, Grant.base, confirm]
    simp only [view] at found kernel
    rw [scope, unbought.purchase] at found
    cases found
    obtain ⟨revision, ac', row', subject⟩ := kernelFor_subject kernel rfl
    refine ⟨c, confirm, scope, subject.trans ?_, revision, clear⟩
    obtain ⟨ac'', row'', same⟩ := (c.touches db fun _ h => h).authContext row
    have eq : ac' = ac'' := Option.some.inj (row'.symm.trans row'')
    rw [eq, same, own]
  | _ => trivial

/-- The quote a transaction has issued. -/
def Outcome.issued : Outcome → List OfferQuote
  | .quoted q => [q]
  | _ => []

lemma base_quotes (g : Grant) (db : Db) : ∃ f, (g.base db).quotes = db.quotes.map f ∧ ∀ q, ∃ t, f q = { q with consumedAt := t } := by
  obtain ⟨confirm, rail, scope, clock, entitlement⟩ := g
  cases confirm with
  | none => exact ⟨id, (List.map_id _).symm, fun q => ⟨q.consumedAt, rfl⟩⟩
  | some c =>
    refine ⟨_, rfl, fun q => ?_⟩
    split
    · exact ⟨_, rfl⟩
    · exact ⟨q.consumedAt, rfl⟩

lemma outcome_quotes (o : Outcome) (db : Db) :
    ∃ f, (o.writes db).quotes = db.quotes.map f ++ o.issued ∧ ∀ q, ∃ t, f q = { q with consumedAt := t } := by
  have same : ∃ f, db.quotes = db.quotes.map f ++ [] ∧ ∀ q : OfferQuote, ∃ t, f q = { q with consumedAt := t } :=
    ⟨id, map_same _, fun q => ⟨q.consumedAt, rfl⟩⟩
  cases o with
  | quoted q => exact ⟨id, by rw [List.map_id]; rfl, fun q => ⟨q.consumedAt, rfl⟩⟩
  | awaiting c =>
    obtain ⟨f, eq, h⟩ := base_quotes ⟨some c, .quoted, c.request.scope, 0, 0⟩ db
    exact ⟨f, eq.trans (List.append_nil _).symm, h⟩
  | already g =>
    obtain ⟨f, eq, h⟩ := base_quotes g db
    exact ⟨f, eq.trans (List.append_nil _).symm, h⟩
  | granted g k superseded =>
    have grants : (k.grants g superseded db).quotes = (g.base db).quotes := by
      simp only [Kernel.grants, Function.comp_apply, Kernel.burn]
      split <;> rfl
    obtain ⟨f, eq, h⟩ := base_quotes g db
    exact ⟨f, (grants.trans eq).trans (List.append_nil _).symm, h⟩
  | signedIn ac | settled se status | disabled | invalidInput | failed | quoteDenied | denied why => exact same

lemma Granting.sought (h : Granting b cat db g k c) {superseded}
    (covered : b.covers cat (k.row g superseded) = true) : b.Sought cat c := by
  simp only [Benefit.covers, Bool.and_eq_true, decide_eq_true_eq] at covered
  have row : (g.scope = b.scope ∧ k.subject = b.subject) ∧ cat.packageOf k.packageRevision = some b.package := covered
  exact ⟨h.scope ▸ row.1.1, h.subject ▸ row.1.2, h.revision ▸ row.2⟩

lemma Once.outcome {o} (holds : Once b cat db) (knows : (Phase.finish o).Knows b cat db)
    (touches : Touches held db (o.writes db)) : Once b cat (o.writes db) := by
  constructor
  · cases o with
    | granted g k superseded =>
      obtain ⟨c, granting⟩ := knows
      rw [show ((Outcome.granted g k superseded).writes db).entitlements = _ from grants_entitlements k g superseded db]
      refine countP_grant _ (fun _ h => h) holds.single fun covered x hx => ?_
      obtain ⟨y, hy, rfl⟩ := List.mem_map.mp hx
      have clear := granting.clear (granting.sought covered) y hy
      split <;> exact clear
    | already g =>
      rw [show ((Outcome.already g).writes db).entitlements = db.entitlements from base_entitlements g db]
      exact holds.single
    | awaiting c | signedIn ac | quoted q | settled se status | disabled | invalidInput | failed | quoteDenied | denied why =>
      exact holds.single
  · intro q hq
    obtain ⟨f, eq, consumed⟩ := outcome_quotes o db
    rw [eq] at hq
    rcases List.mem_append.mp hq with old | new
    · obtain ⟨q₀, mem, rfl⟩ := List.mem_map.mp old
      obtain ⟨t, same⟩ := consumed q₀
      rw [same]
      exact (holds.quotes q₀ mem).touched touches
    · cases o with
      | quoted q₀ =>
        obtain rfl := List.mem_singleton.mp new
        exact Issued.touched knows touches
      | _ => cases new

lemma adds_outcome {o} (knows : (Phase.finish o).Knows b cat db) (locks : ∀ l ∈ o.locks, l ∈ held) :
    Adds b cat held db (o.writes db) := by
  intro x hx covered
  cases o with
  | granted g k superseded =>
    obtain ⟨c, granting⟩ := knows
    rw [show ((Outcome.granted g k superseded).writes db).entitlements = _ from grants_entitlements k g superseded db] at hx
    rcases List.mem_append.mp hx with old | new
    · obtain ⟨y, hy, rfl⟩ := List.mem_map.mp old
      refine .inl ⟨y, hy, ?_⟩
      split at covered <;> exact covered
    · obtain rfl := List.mem_singleton.mp new
      obtain ⟨scope, subject, -⟩ := granting.sought covered
      refine .inr (locks _ (List.mem_append_right _ (List.mem_cons_of_mem _ (List.mem_cons_of_mem _ (granting.locks _ ?_)))))
      simp [Benefit.lock, Confirm.locks, ← scope, ← subject]
  | already g =>
    rw [show ((Outcome.already g).writes db).entitlements = db.entitlements from base_entitlements g db] at hx
    exact .inl ⟨x, hx, covered⟩
  | awaiting c | signedIn ac | quoted q | settled se status | disabled | invalidInput | failed | quoteDenied | denied why =>
    exact .inl ⟨x, hx, covered⟩

/-- Sign-ins, quotes and confirms. -/
def Task.guestFlow : Task → Bool
  | .signIn _ | .quote _ | .confirm _ => true
  | .grant .. | .settle .. => false

lemma knows_initial (b : Benefit) (cat : Catalogue) (e : Engine) {t} (flow : t.guestFlow = true) (db : Db) :
    (initial e t).Knows b cat db := by
  cases t with
  | signIn ac | quote t => trivial
  | confirm r =>
    simp only [initial]
    split
    · trivial
    · split <;> trivial
  | grant | settle => cases flow

lemma once_invariant (e : Engine) (once : cat.OnceOnly b.package) :
    Invariant (commerce e cat) (·.guestFlow = true) (notOvertaken b cat · · · = true) (fun db _ => Once b cat db)
      (fun p db _ => Stands p db ∧ p.here.Knows b cat db) where
  start {db _} t flow _ := ⟨stands_initial e t db, knows_initial b cat e flow db⟩
  statement {db _ p _ _ _} holds keeps guard h := by
    obtain ⟨stands, knows⟩ := keeps
    have does := statement_of_act h
    have view : p.view db = p.here.writes db := congrFun (stands.writes does.not_failed) db
    exact ⟨stands.statement does, knows.statement once holds guard (view ▸ does)⟩
  commit {db _ p _ _} holds keeps _ h := by
    obtain ⟨stands, knows⟩ := keeps
    obtain ⟨o, here, commits, rfl, rfl⟩ := commit_of_act h
    obtain ⟨view, touches⟩ := stands.touches here commits
    rw [view] at touches ⊢
    exact ⟨holds.outcome (here ▸ knows) touches, stands_commit p o _, trivial⟩
  commit_other {db _ p _ _ q} _ keeps _ h keeps' apart := by
    obtain ⟨o, here, commits, rfl, rfl⟩ := commit_of_act h
    obtain ⟨view, touches⟩ := keeps.1.touches here commits
    have apart : ∀ l ∈ q.here.locks, l ∉ p.held := fun l hl held => apart l held (keeps'.1.held l hl)
    have adds : Adds b cat p.held db (p.view db) := by
      rw [view]
      exact adds_outcome (here ▸ keeps.2) fun l hl => keeps.1.held l (here ▸ hl)
    exact ⟨keeps'.1.touched touches apart, keeps'.2.touched touches adds apart⟩
  rollback {db _ _ _} _ _ _ h := by
    obtain ⟨o, rfl⟩ := rollback_of_act h
    exact ⟨stands_ended o db, trivial⟩
  call _ _ _ h := (call_of_act h).elim
  call_other _ _ _ h := (call_of_act h).elim

end

/-- For every account or principal and every once-only package, from a database without quotes and without an entitlement of the
package for the subject: in every interleaving of sign-ins, quotes and confirms in which no confirm for the package takes the
lock of the subject after a grant of the package has overtaken its quote, at most one entitlement of it is granted. -/
theorem granted_once {e : Engine} {cat : Catalogue} {db : Db} {b : Benefit} (once : cat.OnceOnly b.package) (quotes : db.quotes = [])
    (none_yet : ∀ x ∈ db.entitlements, b.covers cat x = false) {labels : List (Label Task)} {s : System Db Lock Unit Phase}
    (run : Run (Guarded (commerce e cat) (·.guestFlow = true) (notOvertaken b cat · · · = true)) (idle db ()) labels s) :
    (s.db.entitlements.filter (b.covers cat)).length ≤ 1 := by
  have start : Once b cat db := by
    refine ⟨?_, by simp [quotes]⟩
    rw [List.filter_eq_nil_iff.mpr fun x hx => by simp [none_yet x hx]]
    exact Nat.zero_le 1
  exact ((once_invariant e once).run run (sound_idle start)).holds.single

def welcome : Benefit := ⟨⟨1, 1⟩, .account 3, 1, .inl rfl⟩

def noSignIn : Db := ⟨[], [], [], [], [], []⟩

def accountContext (id : Nat) : Task := .signIn ⟨id, ⟨1, 1⟩, .account, .account 3, 7, "lan", 1000, none, ""⟩

def quoteOn (context id : Nat) : Task := .quote ⟨⟨⟨1, 1⟩, some context, some 7, "lan"⟩, some 1, none, 0, id⟩

def confirmOf (quote now purchase : Nat) : Task :=
  .confirm ⟨⟨1, 1⟩, some quote, some 7, "lan", now, now, purchase, purchase + 1, purchase + 2⟩

/-- A task that runs alone, as the process of this slot. -/
def alone (t : Task) (slot steps : Nat) : List (Label Task) := .start t :: List.replicate steps (.step slot)

/-- Two sign-ins of the account and a quote on each, before the first is confirmed. -/
def twoQuotes : List (Label Task) :=
  alone (accountContext 5) 0 2 ++ alone (accountContext 6) 1 2 ++ alone (quoteOn 5 20) 2 3 ++ alone (quoteOn 6 21) 3 3 ++
    alone (confirmOf 20 10 30) 4 16

lemma welcome_onceOnly : welcomeCatalogue.OnceOnly 1 := by
  intro r _ _
  change onceOnly [⟨"PRIOR_PURCHASE", [("forbids_prior", .bool true)]⟩] = true
  decide +kernel

/-- With a quote on each of two sign-ins, the account confirms both and has the welcome package twice. -/
theorem welcome_granted_twice : welcomeCatalogue.OnceOnly 1 ∧
    ∃ s, Run (Guarded (commerce (engine false) welcomeCatalogue) (·.guestFlow = true) Anytime) (idle noSignIn ())
      (twoQuotes ++ alone (confirmOf 21 20 40) 5 16) s ∧
      (s.db.entitlements.filter (welcome.covers welcomeCatalogue)).length = 2 := by
  obtain ⟨s, run, twice⟩ := exists_run (f := (commerce (engine false) welcomeCatalogue).stepIf Task.guestFlow fun _ _ _ => true)
    (s := idle noSignIn ()) (l := twoQuotes ++ alone (confirmOf 21 20 40) 5 16)
    (P := fun s => (s.db.entitlements.filter (welcome.covers welcomeCatalogue)).length = 2) (by decide +kernel)
  refine ⟨welcome_onceOnly, s, run.mono fun step => ?_, of_decide_eq_true twice⟩
  obtain ⟨step, starts, -⟩ := guarded_of_stepIf step
  exact ⟨step, starts, fun _ _ _ _ => trivial⟩

/-- Up to the first confirm nothing is overtaken, and the account has the package once. -/
theorem welcome_granted_at_first : ∃ s, Run (Guarded (commerce (engine false) welcomeCatalogue) (·.guestFlow = true)
      (notOvertaken welcome welcomeCatalogue · · · = true)) (idle noSignIn ()) twoQuotes s ∧
    s.db.entitlements.map (·.id) = [32] ∧ (s.db.entitlements.filter (welcome.covers welcomeCatalogue)).length ≤ 1 := by
  obtain ⟨s, run, granted⟩ := exists_run (f := (commerce (engine false) welcomeCatalogue).stepIf Task.guestFlow
      (notOvertaken welcome welcomeCatalogue)) (s := idle noSignIn ()) (l := twoQuotes)
    (P := fun s => s.db.entitlements.map (·.id) = [32]) (by decide +kernel)
  have run := run.mono fun step => guarded_of_stepIf step
  exact ⟨s, run, of_decide_eq_true granted, granted_once welcome_onceOnly rfl (by simp [noSignIn]) run⟩

end StayConnect.Commerce
