import StayConnect.Erasure.Entry
import Mathlib.Data.List.Perm.Basic
import Mathlib.Data.List.Sort

/-!
# What a restore may rely on

`assess` compares the copies of the ledger with one another and with independent records of how far it had reached. Copies are
compared at one position only, with the best copy so far; that this is enough, and that the order does not matter, is the hash
chain's doing (`assess_complete_iff`).
-/

namespace StayConnect.Erasure

variable {c : Codec}

/-- A copy as it was read; a storage that could not be asked has none. -/
structure Copy (c : Codec) where
  name : String
  present : Bool
  reach : Option String
  parse : Option (Parse c)
  reached : present = true → reach = none

def Copy.intact (x : Copy c) : Bool := x.present && x.parse.any (·.err.isNone)

def Copy.entries (x : Copy c) : List Entry := (x.parse.map (·.entries)).getD []

/-- An independent record of how far the ledger had reached; the hash may be unknown. -/
structure Witness where
  source : String
  ledger : String
  seq : Int
  hash : String

structure Verdict (c : Codec) where
  best : Option (Copy c)
  complete : Bool
  heal : List String
  reasons : List String
  conflict : Bool

namespace Verdict

def start : Verdict c := ⟨none, false, [], [], false⟩

def say (v : Verdict c) (reason : String) : Verdict c := { v with reasons := v.reasons ++ [reason] }

def mend (v : Verdict c) (name : String) : Verdict c := { v with heal := v.heal ++ [name] }

def contradict (v : Verdict c) (reason : String) : Verdict c := { v.say reason with conflict := true }

end Verdict

def damageReason : Option (Parse c) → String
  | none => "unreadable"
  | some p =>
    match p.err with
    | some err => err.reason
    | none => if p.torn then "ends in an unfinished write" else "unreadable"

/-- One copy: unreachable, absent, damaged, or one to compare. -/
def sortCopy (acc : Verdict c × List (Copy c)) (x : Copy c) : Verdict c × List (Copy c) :=
  match x.reach with
  | some why => (acc.1.say ("the " ++ x.name ++ " copy could not be reached (" ++ why ++ ")"), acc.2)
  | none =>
    if !x.present then ((acc.1.say ("the " ++ x.name ++ " copy holds no ledger")).mend x.name, acc.2)
    else if !x.intact then ((acc.1.say ("the " ++ x.name ++ " copy is damaged (" ++ damageReason x.parse ++ ")")).mend x.name, acc.2)
    else (acc.1, acc.2 ++ [x])

def hashAt (es : List Entry) (seq : Int) : Option String := (es[(seq - 1).toNat]?).map (·.hash)

/-- Each copy is compared with the best one so far, at the last entry both have. -/
def compareCopies (best : Copy c) (v : Verdict c) : List (Copy c) → Except (Verdict c) (Copy c × Verdict c)
  | [] => .ok (best, v)
  | x :: rest =>
    let bs := headSeq best.entries
    let cs := headSeq x.entries
    let lo := min bs cs
    if 0 < lo ∧ hashAt best.entries lo ≠ hashAt x.entries lo then
      .error (v.contradict ("the " ++ best.name ++ " and " ++ x.name ++ " copies disagree about entry " ++ lo.repr ++ ": they have forked"))
    else if bs < cs then compareCopies x (v.mend best.name) rest
    else if cs < bs then compareCopies best (v.mend x.name) rest
    else compareCopies best v rest

/-- The witnesses with a positive number; how many there are. -/
def checkWitnesses (best : Copy c) (id : String) (satisfied : Nat) (v : Verdict c) :
    List Witness → Except (Verdict c) (Nat × Verdict c)
  | [] => .ok (satisfied, v)
  | w :: rest =>
    if w.seq ≤ 0 then checkWitnesses best id satisfied v rest
    else if w.ledger ≠ "" ∧ w.ledger ≠ id then
      .error (v.contradict (w.source ++ " belongs to a different ledger than the " ++ best.name ++ " copy"))
    else if headSeq best.entries < w.seq then
      .error (v.say ("the " ++ best.name ++ " copy stops at entry " ++ (headSeq best.entries).repr ++ " but " ++ w.source ++
        " says the ledger had reached entry " ++ w.seq.repr ++ ": it is missing the most recent erasures"))
    else if w.hash ≠ "" ∧ hashAt best.entries w.seq ≠ some w.hash then
      .error (v.contradict ("the " ++ best.name ++ " copy does not contain the entry " ++ w.seq.repr ++ " that " ++ w.source ++
        " recorded: it is not this appliance's ledger"))
    else checkWitnesses best id (satisfied + 1) v rest

def uniq (names : List String) : List String := (names.insertionSort (· ≤ ·)).dedup

/-- The end of the assessment, when nothing contradicts the best copy. -/
def conclude (copies intact : List (Copy c)) (best : Copy c) (satisfied : Nat) (v : Verdict c) : Verdict c :=
  let bs := headSeq best.entries
  let v :=
    match intact with
    | a :: b :: _ =>
      { v.say ("both copies are intact and agree up to entry " ++ (min (headSeq a.entries) (headSeq b.entries)).repr) with
        best := some best, complete := true }
    | _ =>
      if 0 < satisfied then
        { v.say ("the " ++ best.name ++ " copy is intact and reaches every independent record of how far the ledger had gone (" ++
            satisfied.repr ++ " checked)") with
          best := some best, complete := true }
      else if bs = 1 then
        { v.say ("the " ++ best.name ++ " copy holds only the start of the ledger, so there is nothing to apply") with
          best := some best, complete := true }
      else v.say ("the " ++ best.name ++ " copy is intact but nothing independent shows it is complete (no other copy, no " ++
        "database or backup that records the ledger): it cannot be used")
  let unreached := if v.complete then (copies.filter (·.reach.isSome)).map (·.name) else []
  { v with heal := uniq (v.heal ++ unreached) }

def assess (copies : List (Copy c)) (witnesses : List Witness) : Verdict c :=
  let (v, intact) := copies.foldl sortCopy (.start, [])
  match intact with
  | [] => v.say "no copy of the erasure ledger can be trusted"
  | first :: rest =>
    let id := ledgerID first.entries
    match rest.find? fun x => ledgerID x.entries ≠ id with
    | some x => v.contradict ("the " ++ first.name ++ " and " ++ x.name ++ " copies are different ledgers")
    | none =>
      match compareCopies first v rest with
      | .error v => v
      | .ok (best, v) =>
        match checkWitnesses best id 0 v witnesses with
        | .error v => v
        | .ok (satisfied, v) => conclude copies intact best satisfied v

/-- `settleFreshLedgers`: the longest intact copy of at least two entries makes the first entry of another ledger fresh. -/
def longestLedger (copies : List (Copy c)) : String × Nat :=
  copies.foldl (fun acc x => if x.intact && acc.2 < x.entries.length then (ledgerID x.entries, x.entries.length) else acc) ("", 1)

def settleFreshLedgers (copies : List (Copy c)) (witnesses : List Witness) : List (Copy c) × List Witness :=
  let id := (longestLedger copies).1
  if id = "" then (copies, witnesses)
  else
    (copies.map fun x =>
      if x.intact ∧ x.entries.length = 1 ∧ ledgerID x.entries ≠ id then ⟨x.name, false, none, none, nofun⟩ else x,
    witnesses.filter fun w => !(w.seq ≤ 1 && w.ledger ≠ "" && w.ledger ≠ id))

def Copy.cores (x : Copy c) : List Entry := x.entries.map Entry.core

section
variable {x y best : Copy c} {es : List Entry} {copies intact : List (Copy c)} {v v' : Verdict c} {ws : List Witness}

lemma Copy.chain (x : Copy c) : Chain c x.entries := by
  unfold Copy.entries
  cases x.parse with
  | none => trivial
  | some p => exact p.chain

@[simp] lemma Copy.length_cores (x : Copy c) : x.cores.length = x.entries.length := List.length_map _

lemma Copy.headSeq_eq (x : Copy c) : headSeq x.entries = x.cores.length := by
  rw [x.chain.headSeq, x.length_cores]

lemma Copy.ledgerID_eq (x : Copy c) : ledgerID x.entries = ledgerID x.cores := by
  unfold Copy.cores ledgerID
  cases x.entries <;> rfl

lemma Copy.hashAt_eq (x : Copy c) (n : Int) : hashAt x.entries n = hashAt x.cores n := by
  unfold hashAt Copy.cores
  rw [List.getElem?_map, Option.map_map]
  rfl

def Copy.Clean (x : Copy c) : Prop := ∀ e ∈ x.entries, e.Clean

variable {n : Nat} {rest : List (Copy c)} {es : List Entry}

lemma hashAt_getElem (h : n < es.length) : hashAt es (n + 1) = some es[n].hash := by
  unfold hashAt
  simp [h]

/-- One hash decides whether a copy is a prefix of a longer one. -/
lemma cores_prefix_iff (cleanx : x.Clean) (cleany : y.Clean) (le : x.cores.length ≤ y.cores.length) (pos : 0 < x.cores.length) :
    hashAt x.entries x.cores.length = hashAt y.entries x.cores.length ↔ x.cores <+: y.cores := by
  constructor
  · intro same
    obtain ⟨n, hn⟩ : ∃ n, x.cores.length = n + 1 := ⟨x.cores.length - 1, by omega⟩
    rw [x.length_cores] at hn
    rw [x.length_cores, y.length_cores] at le
    have hx : n < x.entries.length := by omega
    have hy : n < y.entries.length := by omega
    rw [x.length_cores, hn] at same
    push_cast at same
    rw [hashAt_getElem hx, hashAt_getElem hy] at same
    refine HashChain.prefix_of_last (a := x.entries[n]) (b := y.entries[n]) (Continues.linked x.chain) (Continues.linked y.chain)
      (binding x.chain y.chain cleanx cleany) ?_ ?_ (Option.some.inj same)
    · rw [List.getLast?_eq_getElem?, hn, Nat.add_sub_cancel, List.getElem?_eq_getElem hx]
    · rw [hn, Nat.add_sub_cancel, List.getElem?_eq_getElem hy]
  · rintro ⟨rest, eq⟩
    rw [x.hashAt_eq, y.hashAt_eq, ← eq]
    unfold hashAt
    rw [List.getElem?_append_left (by omega)]

/-- One of the copies continues the other. -/
def Comparable (x y : Copy c) : Prop := x.cores <+: y.cores ∨ y.cores <+: x.cores

lemma fork_iff (cleanx : x.Clean) (cleany : y.Clean) :
    (0 < min (headSeq x.entries) (headSeq y.entries) ∧
      hashAt x.entries (min (headSeq x.entries) (headSeq y.entries)) ≠ hashAt y.entries (min (headSeq x.entries) (headSeq y.entries))) ↔
    ¬ Comparable x y := by
  rw [x.headSeq_eq, y.headSeq_eq]
  rcases Nat.le_total x.cores.length y.cores.length with le | le
  · rw [Int.min_eq_left (by omega)]
    have other : y.cores <+: x.cores → x.cores <+: y.cores := fun h => by
      rw [h.eq_of_length_le le]
    rcases Nat.eq_zero_or_pos x.cores.length with zero | pos
    · simp [Comparable, List.length_eq_zero_iff.mp zero]
    · simp only [Int.natCast_pos, pos, true_and, ne_eq, cores_prefix_iff cleanx cleany le pos, Comparable]
      tauto
  · rw [Int.min_eq_right (by omega)]
    have other : x.cores <+: y.cores → y.cores <+: x.cores := fun h => by
      rw [h.eq_of_length_le le]
    rcases Nat.eq_zero_or_pos y.cores.length with zero | pos
    · simp [Comparable, List.length_eq_zero_iff.mp zero]
    · rw [ne_comm]
      simp only [Int.natCast_pos, pos, true_and, ne_eq, cores_prefix_iff cleany cleanx le pos, Comparable]
      tauto

/-- A verdict that has decided nothing. -/
structure Verdict.Open (v : Verdict c) : Prop where
  best : v.best = none
  complete : v.complete = false
  conflict : v.conflict = false

lemma Verdict.Open.mend (isOpen : v.Open) (name : String) : (v.mend name).Open := ⟨isOpen.best, isOpen.complete, isOpen.conflict⟩

lemma Verdict.Open.say (isOpen : v.Open) (reason : String) : (v.say reason).Open := ⟨isOpen.best, isOpen.complete, isOpen.conflict⟩

lemma compareCopies_ok (isOpen : v.Open) (clean : ∀ x ∈ best :: rest, x.Clean)
    (h : compareCopies best v rest = .ok (y, v')) : v'.Open ∧ y ∈ best :: rest ∧ ∀ x ∈ best :: rest, x.cores <+: y.cores := by
  induction rest generalizing best v with
  | nil =>
    cases h
    exact ⟨isOpen, List.mem_singleton_self _, fun x hx => List.mem_singleton.mp hx ▸ List.prefix_rfl⟩
  | cons x rest ih =>
    unfold compareCopies at h
    simp only at h
    split at h
    · cases h
    next agreed =>
      have comparable := not_not.mp ((fork_iff (clean best (by simp)) (clean x (by simp))).not.mp agreed)
      rw [best.headSeq_eq, x.headSeq_eq] at h
      split at h
      · -- the new copy is longer
        rename_i longer
        obtain ⟨opened, mem, all⟩ := ih (isOpen.mend _) (fun z hz => clean z (List.mem_cons_of_mem _ hz)) h
        refine ⟨opened, List.mem_cons_of_mem _ mem, fun z hz => ?_⟩
        rcases List.mem_cons.mp hz with rfl | hz
        · have shorter : z.cores <+: x.cores := by
            rcases comparable with le | ge
            · exact le
            · exact absurd ge.length_le (by omega)
          exact shorter.trans (all x (by simp))
        · exact all z hz
      · rename_i notLonger
        have shorter : x.cores <+: best.cores := by
          rcases comparable with le | ge
          · rw [le.eq_of_length_le (by omega)]
          · exact ge
        have kept : ∃ v, v.Open ∧ compareCopies best v rest = .ok (y, v') := by
          split at h
          · exact ⟨_, isOpen.mend _, h⟩
          · exact ⟨_, isOpen, h⟩
        obtain ⟨v, opened, h⟩ := kept
        obtain ⟨opened, mem, all⟩ := ih opened (fun z hz => clean z (by simp only [List.mem_cons] at hz ⊢; tauto)) h
        refine ⟨opened, by simp only [List.mem_cons] at mem ⊢; tauto, fun z hz => ?_⟩
        simp only [List.mem_cons] at hz
        rcases hz with rfl | rfl | hz
        · exact all z (by simp)
        · exact shorter.trans (all best (by simp))
        · exact all z (by simp [hz])

lemma compareCopies_isOk (clean : ∀ x ∈ best :: rest, x.Clean)
    (comparable : ∀ x ∈ best :: rest, ∀ y ∈ best :: rest, Comparable x y) : ∃ r, compareCopies best v rest = .ok r := by
  induction rest generalizing best v with
  | nil => exact ⟨_, rfl⟩
  | cons x rest ih =>
    unfold compareCopies
    simp only [fork_iff (clean best (by simp)) (clean x (by simp)), comparable best (by simp) x (by simp), not_true_eq_false, if_false]
    have sub {z w : Copy c} (hz : z ∈ w :: rest) (hw : w = best ∨ w = x) : z ∈ best :: x :: rest := by
      simp only [List.mem_cons] at hz ⊢
      rcases hw with rfl | rfl <;> tauto
    have one {w : Copy c} (hw : w = best ∨ w = x) (v : Verdict c) : ∃ r, compareCopies w v rest = .ok r :=
      ih (fun z hz => clean z (sub hz hw)) fun a ha b hb => comparable a (sub ha hw) b (sub hb hw)
    split
    · exact one (.inr rfl) _
    · split
      · exact one (.inl rfl) _
      · exact one (.inl rfl) _

lemma compareCopies_error (isOpen : v.Open) (h : compareCopies best v rest = .error v') : v'.complete = false ∧ v'.best = none := by
  induction rest generalizing best v with
  | nil => cases h
  | cons x rest ih =>
    unfold compareCopies at h
    simp only at h
    split at h
    · cases h
      exact ⟨isOpen.complete, isOpen.best⟩
    split at h
    · exact ih (isOpen.mend _) h
    · split at h
      · exact ih (isOpen.mend _) h
      · exact ih isOpen h

structure Meets (id : String) (es : List Entry) (w : Witness) : Prop where
  ledger : w.ledger = "" ∨ w.ledger = id
  reaches : w.seq ≤ es.length
  hash : w.hash ≠ "" → hashAt es w.seq = some w.hash

lemma checkWitnesses_ok_iff {id k} :
    checkWitnesses best id k v ws = .ok (n, v') ↔
      v' = v ∧ n = k + ws.countP (fun w => 0 < w.seq) ∧ ∀ w ∈ ws, 0 < w.seq → Meets id best.cores w := by
  induction ws generalizing k with
  | nil =>
    simp only [checkWitnesses, List.countP_nil, Nat.add_zero, List.not_mem_nil, false_implies, implies_true, and_true]
    constructor
    · intro h
      cases h
      exact ⟨rfl, rfl⟩
    · rintro ⟨rfl, rfl⟩
      rfl
  | cons w rest ih =>
    unfold checkWitnesses
    by_cases skip : w.seq ≤ 0
    · rw [if_pos skip, ih, List.countP_cons_of_neg (by simpa using skip)]
      simp [show ¬ 0 < w.seq by omega]
    rw [if_neg skip]
    have meets : Meets id best.cores w ↔
        ¬ (w.ledger ≠ "" ∧ w.ledger ≠ id) ∧ ¬ headSeq best.entries < w.seq ∧ ¬ (w.hash ≠ "" ∧ hashAt best.entries w.seq ≠ some w.hash) := by
      rw [best.headSeq_eq, best.hashAt_eq]
      constructor <;> rintro ⟨ledger, reaches, hash⟩ <;> exact ⟨by tauto, by omega, by tauto⟩
    have positive : 0 < w.seq := by omega
    rw [List.countP_cons_of_pos (by simpa using positive), List.forall_mem_cons]
    simp only [positive, true_implies, meets]
    by_cases ledger : w.ledger ≠ "" ∧ w.ledger ≠ id
    · simp [ledger]
    rw [if_neg ledger]
    by_cases short : headSeq best.entries < w.seq
    · simp [short]
    rw [if_neg short]
    by_cases hash : w.hash ≠ "" ∧ hashAt best.entries w.seq ≠ some w.hash
    · simp [hash]
    · rw [if_neg hash, ih]
      simp only [ledger, short, hash, not_false_eq_true, true_and]
      constructor <;> rintro ⟨h₁, h₂, h₃⟩ <;> exact ⟨h₁, by omega, h₃⟩

lemma checkWitnesses_error {id k} (isOpen : v.Open) (h : checkWitnesses best id k v ws = .error v') :
    v'.complete = false ∧ v'.best = none := by
  induction ws generalizing k with
  | nil => cases h
  | cons w rest ih =>
    unfold checkWitnesses at h
    repeat' split at h
    all_goals first
      | exact ih h
      | (cases h
         exact ⟨isOpen.complete, isOpen.best⟩)

lemma foldl_sortCopy (copies : List (Copy c)) (acc : Verdict c × List (Copy c)) (isOpen : acc.1.Open) :
    (copies.foldl sortCopy acc).1.Open ∧ (copies.foldl sortCopy acc).2 = acc.2 ++ copies.filter (·.intact) := by
  induction copies generalizing acc with
  | nil => exact ⟨isOpen, by simp⟩
  | cons x rest ih =>
    rw [List.foldl_cons]
    cases reach : x.reach with
    | some why =>
      have absent : x.present = false := by
        cases present : x.present with
        | false => rfl
        | true =>
          rw [x.reached present] at reach
          cases reach
      have damaged : x.intact = false := by simp [Copy.intact, absent]
      obtain ⟨opened, eq⟩ := ih (sortCopy acc x) (by simp only [sortCopy, reach]; exact isOpen.say _)
      refine ⟨opened, eq.trans ?_⟩
      simp [sortCopy, reach, damaged]
    | none =>
      by_cases present : x.present = true
      · by_cases intact : x.intact = true
        · obtain ⟨opened, eq⟩ := ih (sortCopy acc x) (by simpa [sortCopy, reach, present, intact] using isOpen)
          refine ⟨opened, eq.trans ?_⟩
          simp [sortCopy, reach, present, intact]
        · obtain ⟨opened, eq⟩ := ih (sortCopy acc x) (by
            simp only [sortCopy, reach, present, intact]
            exact (isOpen.say _).mend _)
          refine ⟨opened, eq.trans ?_⟩
          simp [sortCopy, reach, present, intact]
      · have damaged : x.intact = false := by simp [Copy.intact, present]
        obtain ⟨opened, eq⟩ := ih (sortCopy acc x) (by
          simp only [sortCopy, reach, present]
          exact (isOpen.say _).mend _)
        refine ⟨opened, eq.trans ?_⟩
        simp [sortCopy, reach, present, damaged]

lemma conclude_spec (isOpen : v.Open) :
    (conclude copies intact best n v).conflict = false ∧
    (((conclude copies intact best n v).complete = true ↔ 1 < intact.length ∨ 0 < n ∨ best.cores.length = 1)) ∧
    (conclude copies intact best n v).best = if (conclude copies intact best n v).complete then some best else none := by
  have single : headSeq best.entries = 1 ↔ best.cores.length = 1 := by
    rw [best.headSeq_eq]
    omega
  unfold conclude
  simp only [single]
  match intact with
  | a :: b :: rest => simp [Verdict.say, isOpen.conflict]
  | [] | [_] =>
    by_cases satisfied : 0 < n
    · simp [satisfied, Verdict.say, isOpen.conflict]
    by_cases one : best.cores.length = 1
    · simp only [satisfied, one, if_true, if_false]
      simp [Verdict.say, isOpen.conflict]
    · simp only [satisfied, one, if_false]
      simp [Verdict.say, isOpen.conflict, isOpen.complete, isOpen.best]

/-- The entries that a restore may rely on, said of the copies and the witnesses without their order. -/
structure Settled (copies : List (Copy c)) (ws : List Witness) (es : List Entry) : Prop where
  held : ∃ x ∈ copies, x.intact ∧ x.cores = es
  extends_all : ∀ x ∈ copies, x.intact → x.cores <+: es ∧ ledgerID x.cores = ledgerID es
  witnessed : ∀ w ∈ ws, 0 < w.seq → Meets (ledgerID es) es w
  independent : 1 < (copies.filter (·.intact)).length ∨ (∃ w ∈ ws, 0 < w.seq) ∨ es.length = 1

lemma Settled.unique {es'} (h : Settled copies ws es) (h' : Settled copies ws es') : es = es' := by
  obtain ⟨x, hx, intact, rfl⟩ := h.held
  obtain ⟨x', hx', intact', rfl⟩ := h'.held
  have le := (h'.extends_all x hx intact).1
  have ge := (h.extends_all x' hx' intact').1
  exact le.eq_of_length_le ge.length_le

lemma Settled.perm {copies' ws'} (hc : copies'.Perm copies) (hw : ws'.Perm ws) (h : Settled copies ws es) : Settled copies' ws' es where
  held := by
    obtain ⟨x, hx, rest⟩ := h.held
    exact ⟨x, hc.mem_iff.mpr hx, rest⟩
  extends_all x hx := h.extends_all x (hc.mem_iff.mp hx)
  witnessed w hw' := h.witnessed w (hw.mem_iff.mp hw')
  independent := by
    rcases h.independent with copies | ⟨w, mem, positive⟩ | one
    · exact .inl (by rwa [(hc.filter _).length_eq])
    · exact .inr (.inl ⟨w, hw.mem_iff.mpr mem, positive⟩)
    · exact .inr (.inr one)

lemma countP_witnesses : 0 < ws.countP (fun w => 0 < w.seq) ↔ ∃ w ∈ ws, 0 < w.seq := by
  rw [List.countP_pos_iff]
  simp

lemma assess_cases (copies : List (Copy c)) (ws : List Witness) : ∃ v : Verdict c, v.Open ∧
    assess copies ws = match copies.filter (·.intact) with
      | [] => v.say "no copy of the erasure ledger can be trusted"
      | first :: rest =>
        match rest.find? fun x => ledgerID x.entries ≠ ledgerID first.entries with
        | some x => v.contradict ("the " ++ first.name ++ " and " ++ x.name ++ " copies are different ledgers")
        | none =>
          match compareCopies first v rest with
          | .error v => v
          | .ok (best, v) =>
            match checkWitnesses best (ledgerID first.entries) 0 v ws with
            | .error v => v
            | .ok (satisfied, v) => conclude copies (first :: rest) best satisfied v := by
  obtain ⟨opened, eq⟩ := foldl_sortCopy copies (.start, []) ⟨rfl, rfl, rfl⟩
  refine ⟨_, opened, ?_⟩
  unfold assess
  simp only [eq, List.nil_append]
  cases copies.filter (·.intact) <;> rfl

lemma assess_complete (clean : ∀ x ∈ copies, x.Clean) (h : (assess copies ws).complete = true) :
    (assess copies ws).conflict = false ∧ ∃ best ∈ copies, (assess copies ws).best = some best ∧ best.intact ∧
      Settled copies ws best.cores := by
  obtain ⟨v, opened, eq⟩ := assess_cases copies ws
  rw [eq] at h ⊢
  have sub : ∀ x ∈ copies.filter (·.intact), x ∈ copies ∧ x.intact := fun x hx => List.mem_filter.mp hx
  cases intacts : copies.filter (·.intact) with
  | nil =>
    rw [intacts] at h
    exact absurd (opened.complete.symm.trans h) nofun
  | cons first rest =>
    rw [intacts] at sub
    simp only [intacts] at h ⊢
    split at h
    · exact absurd (opened.complete.symm.trans h) nofun
    next sameLedger =>
      split at h
      · rename_i v' stopped
        rw [(compareCopies_error opened stopped).1] at h
        cases h
      rename_i best v' compared
      obtain ⟨opened, mem, all⟩ := compareCopies_ok opened (fun x hx => clean x (sub x hx).1) compared
      split at h
      · rename_i v'' stopped
        rw [(checkWitnesses_error opened stopped).1] at h
        cases h
      rename_i n v'' checked
      obtain ⟨rfl, rfl, meets⟩ := checkWitnesses_ok_iff.mp checked
      obtain ⟨conflict, complete, bestIs⟩ :
          (conclude copies (first :: rest) best (0 + ws.countP fun w => 0 < w.seq) v'').conflict = false ∧ _ ∧ _ := conclude_spec opened
      rw [h, if_pos rfl] at bestIs
      have ledgers : ∀ x ∈ first :: rest, ledgerID x.cores = ledgerID first.entries := by
        intro x hx
        rw [← x.ledgerID_eq]
        rcases List.mem_cons.mp hx with rfl | hx
        · rfl
        · simpa using List.find?_eq_none.mp sameLedger x hx
      have same : ledgerID best.cores = ledgerID first.entries := ledgers best mem
      refine ⟨conflict, best, (sub best mem).1, bestIs, (sub best mem).2, ⟨best, (sub best mem).1, (sub best mem).2, rfl⟩, ?_, ?_, ?_⟩
      · intro x hx intact
        have hx : x ∈ first :: rest := intacts ▸ List.mem_filter.mpr ⟨hx, intact⟩
        exact ⟨all x hx, (ledgers x hx).trans same.symm⟩
      · exact same ▸ meets
      · rw [intacts]
        rcases complete.mp h with many | positive | one
        · exact .inl many
        · exact .inr (.inl (countP_witnesses.mp (by omega)))
        · exact .inr (.inr one)

lemma complete_of_settled (clean : ∀ x ∈ copies, x.Clean) (h : Settled copies ws es) : (assess copies ws).complete = true := by
  obtain ⟨v, opened, eq⟩ := assess_cases copies ws
  rw [eq]
  have sub : ∀ x ∈ copies.filter (·.intact), x ∈ copies ∧ x.intact := fun x hx => List.mem_filter.mp hx
  obtain ⟨held, memHeld, intactHeld, rfl⟩ := h.held
  cases intacts : copies.filter (·.intact) with
  | nil =>
    have mem : held ∈ copies.filter (·.intact) := List.mem_filter.mpr ⟨memHeld, intactHeld⟩
    rw [intacts] at mem
    cases mem
  | cons first rest =>
    rw [intacts] at sub
    have memHeld : held ∈ first :: rest := intacts ▸ List.mem_filter.mpr ⟨memHeld, intactHeld⟩
    have ledgers : ∀ x ∈ first :: rest, ledgerID x.entries = ledgerID held.cores :=
      fun x hx => x.ledgerID_eq.trans (h.extends_all x (sub x hx).1 (sub x hx).2).2
    have sameLedger : (rest.find? fun x => ledgerID x.entries ≠ ledgerID first.entries) = none := by
      rw [List.find?_eq_none]
      intro x hx
      simp [ledgers x (List.mem_cons_of_mem _ hx), ledgers first List.mem_cons_self]
    have comparable : ∀ x ∈ first :: rest, ∀ y ∈ first :: rest, Comparable x y := fun x hx y hy =>
      List.prefix_or_prefix_of_prefix (h.extends_all x (sub x hx).1 (sub x hx).2).1 (h.extends_all y (sub y hy).1 (sub y hy).2).1
    obtain ⟨⟨best, v'⟩, compared⟩ := compareCopies_isOk (v := v) (fun x hx => clean x (sub x hx).1) comparable
    obtain ⟨opened, mem, all⟩ := compareCopies_ok opened (fun x hx => clean x (sub x hx).1) compared
    have longest : best.cores = held.cores :=
      (h.extends_all best (sub best mem).1 (sub best mem).2).1.eq_of_length_le (all held memHeld).length_le
    have checked : checkWitnesses best (ledgerID first.entries) 0 v' ws = .ok (0 + ws.countP (fun w => 0 < w.seq), v') := by
      refine checkWitnesses_ok_iff.mpr ⟨rfl, rfl, ?_⟩
      rw [longest, ledgers first List.mem_cons_self]
      exact h.witnessed
    simp only [sameLedger, compared, checked]
    refine (conclude_spec opened).2.1.mpr ?_
    rw [longest]
    rcases h.independent with many | some | one
    · exact .inl (intacts ▸ many)
    · exact .inr (.inl (by have := countP_witnesses.mpr some; omega))
    · exact .inr (.inr one)

lemma best_of_incomplete (clean : ∀ x ∈ copies, x.Clean) (h : (assess copies ws).complete = false) :
    (assess copies ws).best = none := by
  obtain ⟨v, opened, eq⟩ := assess_cases copies ws
  rw [eq] at h ⊢
  split
  · exact opened.best
  next first rest intacts =>
    have sub : ∀ x ∈ first :: rest, x ∈ copies := fun x hx => (List.mem_filter.mp (intacts ▸ hx)).1
    simp only [intacts] at h
    split at h
    · exact opened.best
    split at h
    · rename_i stopped
      exact (compareCopies_error opened stopped).2
    rename_i compared
    obtain ⟨opened, -⟩ := compareCopies_ok opened (fun x hx => clean x (sub x hx)) compared
    split at h
    · rename_i stopped
      exact (checkWitnesses_error opened stopped).2
    rename_i checked
    obtain ⟨rfl, -⟩ := checkWitnesses_ok_iff.mp checked
    rw [(conclude_spec opened).2.2, h]
    rfl

lemma assess_perm {copies' ws'} (clean : ∀ x ∈ copies, x.Clean) (hc : copies'.Perm copies)
    (hw : ws'.Perm ws) : (assess copies' ws').complete = (assess copies ws).complete ∧
      (assess copies' ws').best.map Copy.cores = (assess copies ws).best.map Copy.cores := by
  have clean' : ∀ x ∈ copies', x.Clean := fun x hx => clean x (hc.mem_iff.mp hx)
  cases complete : (assess copies ws).complete with
  | true =>
    obtain ⟨-, best, -, eq, -, settled⟩ := assess_complete clean complete
    have settled' := settled.perm hc hw
    have complete' := complete_of_settled clean' settled'
    obtain ⟨-, best', -, eq', -, other⟩ := assess_complete clean' complete'
    refine ⟨complete', ?_⟩
    rw [eq, eq', Option.map_some, Option.map_some, other.unique settled']
  | false =>
    have incomplete : (assess copies' ws').complete = false := by
      cases complete' : (assess copies' ws').complete with
      | false => rfl
      | true =>
        obtain ⟨-, best, -, -, -, settled⟩ := assess_complete clean' complete'
        rw [complete_of_settled clean (settled.perm hc.symm hw.symm)] at complete
        cases complete
    rw [best_of_incomplete clean complete, best_of_incomplete clean' incomplete]
    exact ⟨incomplete, rfl⟩

lemma settleFreshLedgers_copies {i : Nat} (h : copies[i]? = some x) :
    (settleFreshLedgers copies ws).1[i]? = some x ∨ x.entries.length = 1 := by
  unfold settleFreshLedgers
  simp only
  split
  · exact .inl h
  rw [List.getElem?_map, h, Option.map_some]
  split
  next fresh => exact .inr fresh.2.1
  · exact .inl rfl

lemma settleFreshLedgers_witnesses {w} (mem : w ∈ ws) (beyond : 1 < w.seq) : w ∈ (settleFreshLedgers copies ws).2 := by
  unfold settleFreshLedgers
  simp only
  split
  · exact mem
  · simp [mem, Int.not_le.mpr beyond]

end

/-- A complete verdict has no conflict; its best copy is an intact chain of which every intact copy is a prefix, apart from
authentication codes, and it reaches every witness with the hash the witness names. Completeness and the best entries do not depend
on the order of copies and witnesses, and nothing that shows more than the first entry of a ledger is set aside as fresh. -/
theorem assess_reliable {c : Codec} (copies : List (Copy c)) (ws : List Witness) (clean : ∀ x ∈ copies, x.Clean) :
    ((assess copies ws).complete = true → (assess copies ws).conflict = false ∧
      ∃ best ∈ copies, (assess copies ws).best = some best ∧ best.intact ∧ Chain c best.entries ∧
        (∀ x ∈ copies, x.intact → x.cores <+: best.cores) ∧
        ∀ w ∈ ws, 0 < w.seq → w.seq ≤ best.entries.length ∧ (w.hash ≠ "" → hashAt best.entries w.seq = some w.hash)) ∧
    (∀ copies' ws', copies'.Perm copies → ws'.Perm ws → (assess copies' ws').complete = (assess copies ws).complete ∧
      (assess copies' ws').best.map Copy.cores = (assess copies ws).best.map Copy.cores) ∧
    (∀ (i : Nat) x, copies[i]? = some x → (settleFreshLedgers copies ws).1[i]? = some x ∨ x.entries.length = 1) ∧
    ∀ w ∈ ws, 1 < w.seq → w ∈ (settleFreshLedgers copies ws).2 := by
  refine ⟨fun complete => ?_, fun copies' ws' hc hw => assess_perm clean hc hw, fun i x h => settleFreshLedgers_copies h,
    fun w mem beyond => settleFreshLedgers_witnesses mem beyond⟩
  obtain ⟨conflict, best, mem, eq, intact, settled⟩ := assess_complete clean complete
  refine ⟨conflict, best, mem, eq, intact, best.chain, fun x hx intact => (settled.extends_all x hx intact).1, fun w hw positive => ?_⟩
  have meets := settled.witnessed w hw positive
  exact ⟨best.length_cores ▸ meets.reaches, fun named => best.hashAt_eq w.seq ▸ meets.hash named⟩

def wholeCopy (c : Codec) (name : String) (es : List Entry) (chain : Chain c es) : Copy c :=
  ⟨name, true, none, some ⟨es, false, none, 0, chain⟩, fun _ => rfl⟩

def firstEntry : Entry := nextEntry plainCodec none "one"

lemma firstEntry_chain : Chain plainCodec [firstEntry] := ⟨checkLink_nextEntry _ (by simp), trivial⟩

def localCopy : Copy plainCodec := wholeCopy plainCodec "local" [firstEntry] firstEntry_chain

def recodedCopy : Copy plainCodec := wholeCopy plainCodec "external" [{ firstEntry with mac := "other" }] firstEntry_chain

/-- Two copies of the first entry. -/
theorem copies_agree : (assess [recodedCopy, localCopy] []).complete = true ∧
    ∃ best ∈ [recodedCopy, localCopy], (assess [recodedCopy, localCopy] []).best = some best ∧ recodedCopy.cores <+: best.cores := by
  have complete : (assess [recodedCopy, localCopy] []).complete = true := by decide +kernel
  have clean : ∀ x ∈ [recodedCopy, localCopy], x.Clean := by
    simp only [Copy.Clean]
    decide +kernel
  obtain ⟨-, best, mem, eq, -, -, all, -⟩ := (assess_reliable [recodedCopy, localCopy] [] clean).1 complete
  exact ⟨complete, best, mem, eq, all recodedCopy (by simp) (by decide +kernel)⟩

/-- Hashes do not cover authentication codes, and neither does the comparison of copies. -/
theorem codes_are_not_compared : (assess [localCopy, recodedCopy] []).complete = true ∧
    (assess [localCopy, recodedCopy] []).best.map (·.name) = some "local" ∧ recodedCopy.intact ∧
    ¬ recodedCopy.entries <+: localCopy.entries := by
  decide +kernel

end StayConnect.Erasure
