import StayConnect.HashChain
import StayConnect.Framing
import Mathlib.Data.Option.Basic

/-!
# The erasure ledger

An append-only chain of entries, kept as one JSON object a line. A file is read line by line and trusted only as far as every
line parses and continues the chain; a last line without its newline is a write that never completed. The digest and the JSON of
a line are behind `Codec`.
-/

namespace StayConnect.Erasure

structure Entry where
  ledger : String
  seq : Int
  prev : String
  kind : String
  tenant : String
  site : String
  atUS : Int
  body : String
  hash : String
  mac : String
  deriving DecidableEq, Repr

/-- An entry apart from its authentication code. -/
def Entry.core (e : Entry) : Entry := { e with mac := "" }

/-- What the ledger relies on: the digest binds what it is of, and a line reads back as the entry it was written for. -/
structure Codec where
  sha256 : List Char → String
  sha256_injective : ∀ {s t : List Char}, sha256 s = sha256 t → s = t
  line : Entry → List Char
  decode : List Char → Option Entry
  decode_line : ∀ e, decode (line e) = some e
  line_complete : ∀ e, '\n' ∉ line e

def genesisPrev : String := "0000000000000000000000000000000000000000000000000000000000000000"

def hashDomain : String := "stayconnect-ledger-v1"

def unitSeparator : Char := Char.ofNat 31

/-- The fields a hash covers. -/
def Entry.fields (e : Entry) : List (List Char) :=
  [hashDomain.toList, e.ledger.toList, e.seq.repr.toList, e.prev.toList, e.kind.toList, e.tenant.toList, e.site.toList,
    e.atUS.repr.toList, e.body.toList]

def computeHash (c : Codec) (e : Entry) : String := c.sha256 ([unitSeparator].intercalate e.fields)

/-- Why an entry does not continue a chain. -/
inductive LinkError where
  | incomplete
  | notStart
  | jumps (before after : Int)
  | notFollowing
  | otherLedger
  | changed

def LinkError.text : LinkError → String
  | .incomplete => "an entry is incomplete"
  | .notStart => "the first entry is not the start of a ledger"
  | .jumps a b => "the sequence jumps from " ++ a.repr ++ " to " ++ b.repr
  | .notFollowing => "an entry does not follow the one before it"
  | .otherLedger => "an entry belongs to another ledger"
  | .changed => "an entry was changed after it was written"

/-- `checkLink`: the first thing that is wrong with an entry after another. -/
def checkLink (c : Codec) (prev : Option Entry) (e : Entry) : Option LinkError :=
  if e.seq < 1 ∨ e.hash = "" ∨ e.ledger = "" ∨ e.kind = "" then some .incomplete
  else
    let link := match prev with
      | none => if e.seq ≠ 1 ∨ e.prev ≠ genesisPrev then some .notStart else none
      | some p =>
        if e.seq ≠ p.seq + 1 then some (.jumps p.seq e.seq)
        else if e.prev ≠ p.hash then some .notFollowing
        else if e.ledger ≠ p.ledger then some .otherLedger
        else none
    match link with
    | some err => some err
    | none => if computeHash c e ≠ e.hash then some .changed else none

/-- Every entry continues the one before it. -/
def Continues (c : Codec) : Option Entry → List Entry → Prop
  | _, [] => True
  | prev, e :: es => checkLink c prev e = none ∧ Continues c (some e) es

instance (c : Codec) : (prev : Option Entry) → (es : List Entry) → Decidable (Continues c prev es)
  | _, [] => isTrue trivial
  | prev, e :: es =>
    haveI := instDecidableContinues c (some e) es
    inferInstanceAs (Decidable (checkLink c prev e = none ∧ Continues c (some e) es))

abbrev Chain (c : Codec) (es : List Entry) : Prop := Continues c none es

inductive ParseError where
  | notEntry (line : Nat)
  | link (line : Nat) (err : LinkError)
  /-- An authentication code that does not check. -/
  | unauthentic (seq : Int)

/-- The text of the error, without the words that the ledger is damaged. -/
def ParseError.reason : ParseError → String
  | .notEntry n => "line " ++ n.repr ++ " is not a ledger entry"
  | .link n err => "line " ++ n.repr ++ ": " ++ err.text
  | .unauthentic n => "the ledger entry was not written by this appliance: entry " ++ n.repr ++
      " has an authentication code that does not check"

/-- What was read of a file: a chain, whatever came after it. -/
structure Parse (c : Codec) where
  entries : List Entry
  torn : Bool
  err : Option ParseError
  validBytes : Nat
  chain : Chain c entries

def headSeq (es : List Entry) : Int := (es.getLast?.map (·.seq)).getD 0

def headHash (es : List Entry) : String := (es.getLast?.map (·.hash)).getD ""

def ledgerID (es : List Entry) : String := (es.head?.map (·.ledger)).getD ""

/-- The complete lines of a file and what is left after the last newline. -/
def lines : List Char → List (List Char) × List Char
  | [] => ([], [])
  | ch :: rest =>
    let (ls, torn) := lines rest
    if ch = '\n' then ([] :: ls, torn)
    else match ls with
      | [] => ([], ch :: torn)
      | l :: ls => ((ch :: l) :: ls, torn)

/-- The entries of the lines up to the first that is not one, and its error. -/
def parseLines (c : Codec) (prev : Option Entry) (lineNo : Nat) : List (List Char) → List Entry × Option ParseError
  | [] => ([], none)
  | l :: ls =>
    match c.decode l with
    | none => ([], some (.notEntry lineNo))
    | some e =>
      match checkLink c prev e with
      | some err => ([], some (.link lineNo err))
      | none =>
        let (es, err) := parseLines c (some e) (lineNo + 1) ls
        (e :: es, err)

lemma parseLines_continues (c : Codec) (ls : List (List Char)) (prev : Option Entry) (n : Nat) :
    Continues c prev (parseLines c prev n ls).1 := by
  induction ls generalizing prev n with
  | nil => trivial
  | cons l ls ih =>
    unfold parseLines
    cases c.decode l with
    | none => trivial
    | some e =>
      cases linked : checkLink c prev e with
      | some err =>
        simp only [linked]
        trivial
      | none =>
        simp only [linked]
        exact ⟨linked, ih (some e) (n + 1)⟩

def parseChain (c : Codec) (data : List Char) : Parse c where
  entries := (parseLines c none 1 (lines data).1).1
  err := (parseLines c none 1 (lines data).1).2
  torn := (parseLines c none 1 (lines data).1).2.isNone && !(lines data).2.isEmpty
  validBytes := (((lines data).1.take (parseLines c none 1 (lines data).1).1.length).map fun l => l.length + 1).sum
  chain := parseLines_continues c _ none 1

def encode (c : Codec) (es : List Entry) : List Char := es.flatMap fun e => c.line e ++ ['\n']

section
variable {c : Codec} {prev : Option Entry} {e : Entry} {es xs ys : List Entry}

/-- What an entry that continues a chain says of the one before it. -/
def Follows (prev : Option Entry) (e : Entry) : Prop :=
  match prev with
  | none => e.seq = 1 ∧ e.prev = genesisPrev
  | some p => e.seq = p.seq + 1 ∧ e.prev = p.hash ∧ e.ledger = p.ledger

lemma checkLink_none (h : checkLink c prev e = none) : 1 ≤ e.seq ∧ e.ledger ≠ "" ∧ Follows prev e ∧ computeHash c e = e.hash := by
  unfold checkLink at h
  split at h
  · cases h
  next complete =>
    obtain ⟨seq, -, ledger, -⟩ := by simpa only [not_or] using complete
    simp only at h
    cases prev with
    | none =>
      simp only at h
      split at h
      · cases h
      rename_i linked
      split at linked
      · cases linked
      rename_i start
      push Not at start
      split at h
      · cases h
      · rename_i hash
        exact ⟨Int.not_lt.mp seq, ledger, start, not_not.mp hash⟩
    | some p =>
      simp only at h
      split at h
      · cases h
      rename_i linked
      repeat' split at linked
      all_goals cases linked
      rename_i next prev same
      split at h
      · cases h
      · rename_i hash
        exact ⟨Int.not_lt.mp seq, ledger, ⟨not_not.mp next, not_not.mp prev, not_not.mp same⟩, not_not.mp hash⟩

lemma continues_append : Continues c prev (xs ++ ys) ↔ Continues c prev xs ∧ Continues c (xs.getLast?.or prev) ys := by
  induction xs generalizing prev with
  | nil => simp [Continues]
  | cons x xs ih =>
    rw [List.cons_append, Continues, Continues, ih, and_assoc]
    have last : (x :: xs).getLast?.or prev = xs.getLast?.or (some x) := by
      cases xs with
      | nil => rfl
      | cons y ys => rw [List.getLast?_cons_cons, List.getLast?_cons]; rfl
    rw [last]

lemma Continues.mem (h : Continues c prev es) (mem : e ∈ es) : e.ledger ≠ "" ∧ computeHash c e = e.hash := by
  induction es generalizing prev with
  | nil => cases mem
  | cons x xs ih =>
    rcases List.mem_cons.mp mem with rfl | rest
    · obtain ⟨-, ledger, -, hash⟩ := checkLink_none h.1
      exact ⟨ledger, hash⟩
    · exact ih h.2 rest

lemma Continues.seq {n : Nat} (h : Continues c prev es) (at' : es[n]? = some e) : e.seq = (prev.map (·.seq)).getD 0 + n + 1 := by
  induction es generalizing prev n with
  | nil => simp at at'
  | cons x xs ih =>
    obtain ⟨-, -, follows, -⟩ := checkLink_none h.1
    have first : x.seq = (prev.map (·.seq)).getD 0 + 1 := by
      cases prev with
      | none | some p => simpa using follows.1
    cases n with
    | zero =>
      cases at'
      simpa using first
    | succ n =>
      have rest := ih h.2 (by simpa using at')
      simp only [Option.map_some, Option.getD_some] at rest
      rw [rest, first]
      push_cast
      omega

lemma Continues.linked (h : Continues c prev es) : HashChain.Linked Entry.hash Entry.prev es := by
  induction es generalizing prev with
  | nil => exact fun n a b hx => (by simp at hx)
  | cons x xs ih =>
    intro n a b ha hb
    cases n with
    | zero =>
      cases ha
      cases xs with
      | nil => simp at hb
      | cons y ys =>
        cases hb
        obtain ⟨-, -, follows, -⟩ := checkLink_none h.2.1
        exact follows.2.1
    | succ n => exact ih h.2 n a b (by simpa using ha) (by simpa using hb)

lemma Continues.ledger {p} (h : Continues c (some p) es) (mem : e ∈ es) : e.ledger = p.ledger := by
  induction es generalizing p with
  | nil => cases mem
  | cons x xs ih =>
    obtain ⟨-, -, follows, -⟩ := checkLink_none h.1
    rcases List.mem_cons.mp mem with rfl | rest
    · exact follows.2.2
    · exact (ih h.2 rest).trans follows.2.2

lemma Chain.seq {n : Nat} (h : Chain c es) (at' : es[n]? = some e) : e.seq = n + 1 := by
  simpa using Continues.seq h at'

lemma Chain.headSeq (h : Chain c es) : Erasure.headSeq es = es.length := by
  unfold Erasure.headSeq
  cases last : es.getLast? with
  | none =>
    rw [List.getLast?_eq_none_iff] at last
    simp [last]
  | some e =>
    rw [List.getLast?_eq_getElem?] at last
    have lt := (List.getElem?_eq_some_iff.mp last).1
    rw [Option.map_some, Option.getD_some, h.seq last]
    omega

lemma Chain.ledgerID (h : Chain c es) (mem : e ∈ es) : e.ledger = Erasure.ledgerID es := by
  cases es with
  | nil => cases mem
  | cons x xs =>
    rcases List.mem_cons.mp mem with rfl | rest
    · rfl
    · exact Continues.ledger h.2 rest

/-- No field of the entry holds the separator. -/
def Entry.Clean (e : Entry) : Prop :=
  unitSeparator ∉ e.ledger.toList ∧ unitSeparator ∉ e.prev.toList ∧ unitSeparator ∉ e.kind.toList ∧
    unitSeparator ∉ e.tenant.toList ∧ unitSeparator ∉ e.site.toList ∧ unitSeparator ∉ e.body.toList

instance (e : Entry) : Decidable e.Clean := inferInstanceAs (Decidable (_ ∧ _))

lemma separator_notMem_repr (n : Int) : unitSeparator ∉ n.repr.toList := by
  intro h
  rcases Framing.isDigit_of_mem_repr h with digit | sign
  · exact absurd digit (by decide)
  · exact absurd sign (by decide)

lemma Entry.Clean.fields (h : e.Clean) : ∀ l ∈ e.fields, unitSeparator ∉ l := by
  obtain ⟨ledger, prev, kind, tenant, site, body⟩ := h
  intro l hl
  simp only [Entry.fields, List.mem_cons, List.not_mem_nil, or_false] at hl
  rcases hl with rfl | rfl | rfl | rfl | rfl | rfl | rfl | rfl | rfl
  · decide
  · exact ledger
  · exact separator_notMem_repr _
  · exact prev
  · exact kind
  · exact tenant
  · exact site
  · exact separator_notMem_repr _
  · exact body

lemma fields_of_intercalate {a b : Entry} (ha : a.Clean) (hb : b.Clean)
    (h : [unitSeparator].intercalate a.fields = [unitSeparator].intercalate b.fields) : a.fields = b.fields := by
  rw [← List.splitOn_intercalate unitSeparator ha.fields (by simp [Entry.fields]), h,
    List.splitOn_intercalate unitSeparator hb.fields (by simp [Entry.fields])]

lemma core_of_hash {a b : Entry} (ha : a.Clean) (hb : b.Clean) (hasha : computeHash c a = a.hash) (hashb : computeHash c b = b.hash)
    (same : a.hash = b.hash) : a.core = b.core := by
  have fields := fields_of_intercalate ha hb (c.sha256_injective (hasha.trans (same.trans hashb.symm)))
  simp only [Entry.fields, List.cons.injEq, String.toList_inj, true_and, and_true] at fields
  obtain ⟨ledger, seq, prev, kind, tenant, site, atUS, body⟩ := fields
  have seq := Framing.repr_injective seq
  have atUS := Framing.repr_injective atUS
  obtain ⟨_, _, _, _, _, _, _, _, _, _⟩ := a
  obtain ⟨_, _, _, _, _, _, _, _, _, _⟩ := b
  simp_all [Entry.core]

lemma binding (chainx : Chain c xs) (chainy : Chain c ys) (cleanx : ∀ e ∈ xs, e.Clean) (cleany : ∀ e ∈ ys, e.Clean) :
    HashChain.Binding Entry.hash Entry.prev Entry.core xs ys := by
  intro a ha b hb same
  have cores := core_of_hash (cleanx a ha) (cleany b hb) (Continues.mem chainx ha).2 (Continues.mem chainy hb).2 same
  exact ⟨cores, congrArg (·.prev) cores⟩

end

/-! ## A codec

The fields one after the other, two characters for one, so that there is no newline; the digest of a text is the text, with the
separator and another character exchanged. -/

namespace PlainCodec

def text (s : List Char) : List Char := s.flatMap (fun ch => if ch = '\n' then ['n', '.'] else ['c', ch]) ++ ['e', '.']

def readText : List Char → Option (List Char × List Char)
  | 'e' :: _ :: rest => some ([], rest)
  | 'n' :: _ :: rest => (readText rest).map fun (s, rest) => ('\n' :: s, rest)
  | 'c' :: ch :: rest => (readText rest).map fun (s, rest) => (ch :: s, rest)
  | _ => none

lemma readText_text (s rest : List Char) : readText (text s ++ rest) = some (s, rest) := by
  induction s with
  | nil => rfl
  | cons ch s ih =>
    unfold text at ih ⊢
    by_cases newline : ch = '\n'
    · subst newline
      change (readText ((List.flatMap _ s ++ ['e', '.']) ++ rest)).map _ = _
      rw [ih]
      rfl
    · rw [List.flatMap_cons, if_neg newline]
      change (readText ((List.flatMap _ s ++ ['e', '.']) ++ rest)).map _ = _
      rw [ih]
      rfl

/-- The separator and a bar exchanged. -/
def exchange (ch : Char) : Char := if ch = unitSeparator then '|' else if ch = '|' then unitSeparator else ch

lemma exchange_exchange (ch : Char) : exchange (exchange ch) = ch := by
  unfold exchange
  by_cases separator : ch = unitSeparator
  · simp [separator, show ¬ '|' = unitSeparator by decide]
  · by_cases bar : ch = '|'
    · simp [bar, show ¬ '|' = unitSeparator by decide]
    · simp [separator, bar]

lemma newline_notMem_text (s : List Char) : '\n' ∉ text s := by
  unfold text
  simp only [List.mem_append, List.mem_flatMap, not_or, not_exists, not_and]
  refine ⟨fun ch _ => ?_, by decide⟩
  split
  · decide
  next differs => simpa using Ne.symm differs

def number : Int → List Char
  | .ofNat n => List.replicate n '1'
  | .negSucc n => '-' :: List.replicate n '1'

def readNumber : List Char → Int
  | '-' :: s => .negSucc s.length
  | s => .ofNat s.length

lemma readNumber_number (n : Int) : readNumber (number n) = n := by
  cases n with
  | ofNat n => cases n <;> simp [number, readNumber, List.replicate_succ]
  | negSucc n => simp [number, readNumber]

def line (e : Entry) : List Char :=
  text e.ledger.toList ++ (text (number e.seq) ++ (text e.prev.toList ++ (text e.kind.toList ++ (text e.tenant.toList ++
    (text e.site.toList ++ (text (number e.atUS) ++ (text e.body.toList ++ (text e.hash.toList ++ (text e.mac.toList ++ [])))))))))

def decode (l : List Char) : Option Entry := do
  let (ledger, l) ← readText l
  let (seq, l) ← readText l
  let (prev, l) ← readText l
  let (kind, l) ← readText l
  let (tenant, l) ← readText l
  let (site, l) ← readText l
  let (atUS, l) ← readText l
  let (body, l) ← readText l
  let (hash, l) ← readText l
  let (mac, _) ← readText l
  return ⟨.ofList ledger, readNumber seq, .ofList prev, .ofList kind, .ofList tenant, .ofList site, readNumber atUS, .ofList body,
    .ofList hash, .ofList mac⟩

end PlainCodec

open PlainCodec in
def plainCodec : Codec where
  sha256 s := .ofList (s.map exchange)
  sha256_injective h := by
    refine List.map_injective_iff.mpr (fun a b same => ?_) (String.ofList_injective h)
    rw [← exchange_exchange a, same, exchange_exchange]
  line := line
  decode := decode
  decode_line e := by
    simp only [line, decode, readText_text, Option.bind_eq_bind, Option.bind_some, readNumber_number, String.ofList_toList,
      Option.pure_def]
  line_complete e := by
    simp only [line, List.mem_append, newline_notMem_text, or_self, List.not_mem_nil, not_false_eq_true]

def nextEntry (c : Codec) (prev : Option Entry) (body : String) : Entry :=
  let e : Entry := ⟨"L", (prev.map (·.seq)).getD 0 + 1, (prev.map (·.hash)).getD genesisPrev, "erasure", "t", "s", 0, body, "", ""⟩
  { e with hash := computeHash c e }

lemma computeHash_ne_empty (e : Entry) : computeHash plainCodec e ≠ "" := by
  change String.ofList _ ≠ _
  rw [← String.ofList_nil]
  intro same
  have empty := String.ofList_injective same
  simp [Entry.fields, List.intercalate, hashDomain] at empty

lemma checkLink_nextEntry {prev} (body : String) (h : ∀ p ∈ prev, p.ledger = "L" ∧ 0 ≤ p.seq) :
    checkLink plainCodec prev (nextEntry plainCodec prev body) = none := by
  have seq : (nextEntry plainCodec prev body).seq = (prev.map (·.seq)).getD 0 + 1 := rfl
  have before : (nextEntry plainCodec prev body).prev = (prev.map (·.hash)).getD genesisPrev := rfl
  have ledger : (nextEntry plainCodec prev body).ledger = "L" := rfl
  have kind : (nextEntry plainCodec prev body).kind = "erasure" := rfl
  have hash : computeHash plainCodec (nextEntry plainCodec prev body) = (nextEntry plainCodec prev body).hash := rfl
  have nonempty : (nextEntry plainCodec prev body).hash ≠ "" := computeHash_ne_empty _
  generalize nextEntry plainCodec prev body = e at *
  cases prev with
  | none => simp [checkLink, seq, before, ledger, kind, hash, nonempty]
  | some p =>
    obtain ⟨same, pos⟩ := h p rfl
    simp [checkLink, seq, before, ledger, kind, hash, nonempty, same, show ¬ p.seq + 1 < 1 by omega]

end StayConnect.Erasure
