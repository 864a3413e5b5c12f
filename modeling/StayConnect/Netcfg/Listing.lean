import StayConnect.Netcfg.Accepted

/-!
# Listings of nft sets

The elements of the authorization and garden sets as the kernel holds them, the JSON in which `nft -j list set` shows them, and
`parseJSON` of `data-plane/internal/nft/parse.go`. The texts of addresses are behind `Texts`.
-/

namespace StayConnect.Netcfg
open Netd

inductive AddrSpan where
  | one (a : BitVec 32)
  | net (n : Subnet)
  | range (lo hi : BitVec 32)
deriving DecidableEq, Repr

inductive PortSpan where
  | one (p : BitVec 16)
  | range (lo hi : BitVec 16)
deriving DecidableEq, Repr

/-- The element keys of the four types of set. -/
inductive Key where
  | addr (a : AddrSpan)
  | pair (a : AddrSpan) (p : PortSpan)
  | bound (iface : String) (a : BitVec 32)
  | boundMAC (iface : String) (a : BitVec 32) (mac : BitVec 48)
deriving DecidableEq, Repr

/-- What a packet is looked up by. -/
inductive Point where
  | addr (a : BitVec 32)
  | pair (a : BitVec 32) (p : BitVec 16)
  | bound (iface : String) (a : BitVec 32)
  | boundMAC (iface : String) (a : BitVec 32) (mac : BitVec 48)

def AddrSpan.holds : AddrSpan → BitVec 32 → Prop
  | .one a, x => x = a
  | .net n, x => n.contains x
  | .range lo hi, x => lo ≤ x ∧ x ≤ hi

def PortSpan.holds : PortSpan → BitVec 16 → Prop
  | .one p, x => x = p
  | .range lo hi, x => lo ≤ x ∧ x ≤ hi

def Key.Matches : Key → Point → Prop
  | .addr s, .addr a => s.holds a
  | .pair s t, .pair a p => s.holds a ∧ t.holds p
  | .bound i a, .bound j b => i = j ∧ a = b
  | .boundMAC i a m, .boundMAC j b n => i = j ∧ a = b ∧ m = n
  | _, _ => False

/-- For how long an element stands, in milliseconds; a timed one that has run out may still be listed. -/
inductive Lease where
  | permanent
  | timed (timeout left : Nat)
deriving DecidableEq, Repr

/-- At least so many milliseconds are left. -/
def Lease.Lasts (ms : Nat) : Lease → Prop
  | .permanent => True
  | .timed _ left => ms ≤ left

/-- `noted` elements carry an attribute besides their lease, such as a comment. -/
structure Live where
  key : Key
  lease : Lease
  noted : Bool
deriving DecidableEq, Repr

inductive Json where
  | str (s : String)
  | num (n : Int)
  | arr (items : List Json)
  | obj (fields : List (String × Json))

/-- Go's `net.ParseIP`, `net.ParseMAC` for six bytes, and the texts nft writes. -/
structure Texts where
  parseIP : String → Option Ip
  parseMAC : String → Option (BitVec 48)
  ipText : BitVec 32 → String
  macText : BitVec 48 → String
  parseIP_ipText : ∀ a, parseIP (ipText a) = some (.v4 a)
  parseIP_macText : ∀ m, parseIP (macText m) = none
  parseMAC_macText : ∀ m, parseMAC (macText m) = some m

section
variable (T : Texts)

def AddrSpan.json : AddrSpan → Json
  | .one a => .str (T.ipText a)
  | .net n => .obj [("prefix", .obj [("addr", .str (T.ipText n.base)), ("len", .num n.ones)])]
  | .range lo hi => .obj [("range", .arr [.str (T.ipText lo), .str (T.ipText hi)])]

def PortSpan.json : PortSpan → Json
  | .one p => .num p.toNat
  | .range lo hi => .obj [("range", .arr [.num lo.toNat, .num hi.toNat])]

def Key.json : Key → Json
  | .addr s => s.json T
  | .pair s t => .obj [("concat", .arr [s.json T, t.json])]
  | .bound i a => .obj [("concat", .arr [.str i, .str (T.ipText a)])]
  | .boundMAC i a m => .obj [("concat", .arr [.str i, .str (T.ipText a), .str (T.macText m)])]

/-- An element with attributes is wrapped; times are whole seconds. -/
def Live.json (e : Live) : Json :=
  match e.lease with
  | .permanent => if e.noted then .obj [("elem", .obj [("val", e.key.json T), ("comment", .str "")])] else e.key.json T
  | .timed timeout left =>
    .obj [("elem", .obj [("val", e.key.json T), ("timeout", .num (timeout / 1000 : Nat)), ("expires", .num (left / 1000 : Nat))])]

/-- `nft -j list set`: the objects of `nftables`. -/
def listSet (els : List Live) : List (List (String × Json)) :=
  [[("metainfo", .obj [])], [("set", .obj [("elem", .arr (els.map (Live.json T)))])]]

/-- `nft.Element`; times are seconds. -/
structure Element where
  ip : Option Ip
  iface : String
  mac : Option (BitVec 48)
  port : Nat
  timeout : Int
  expires : Int

def Element.empty : Element := ⟨none, "", none, 0, 0, 0⟩

def concatPart (el : Element) : Json → Element
  | .num n => if 0 < n ∧ n ≤ 65535 then { el with port := n.toNat } else el
  | .str s =>
    match T.parseIP s with
    | some ip => { el with ip := some ip }
    | none =>
      match T.parseMAC s with
      | some mac => { el with mac := some mac }
      | none => if s ≠ "" then { el with iface := s } else el
  | _ => el

/-- The key of an element. A value that is neither a text nor a concatenation has none. -/
def parseValue : Json → Element
  | .str s => { Element.empty with ip := T.parseIP s }
  | .obj val =>
    match val.lookup "concat" with
    | some (.arr parts) => parts.foldl (concatPart T) Element.empty
    | _ => Element.empty
  | _ => Element.empty

def number : Option Json → Int
  | some (.num n) => n
  | _ => 0

def parseElem : Json → Option Element
  | .str s => (T.parseIP s).map fun ip => { Element.empty with ip := some ip }
  | .obj v =>
    let inner := match v.lookup "elem" with
      | some (.obj inner) => inner
      | _ => v
    let el := parseValue T ((inner.lookup "val").getD (.obj inner))
    if el.ip.isSome then some { el with timeout := number (inner.lookup "timeout"), expires := number (inner.lookup "expires") }
    else none
  | _ => none

def parseJSON (objects : List (List (String × Json))) : List Element :=
  objects.flatMap fun obj =>
    match obj.lookup "set" with
    | some (.obj setObj) =>
      match setObj.lookup "elem" with
      | some (.arr elems) => elems.filterMap (parseElem T)
      | _ => []
    | _ => []

end

section
variable {T : Texts}

def Lease.timeoutSeconds : Lease → Int
  | .permanent => 0
  | .timed timeout _ => (timeout / 1000 : Nat)

def Lease.expiresSeconds : Lease → Int
  | .permanent => 0
  | .timed _ left => (left / 1000 : Nat)

theorem parseJSON_listSet (els : List Live) : parseJSON T (listSet T els) = els.filterMap fun e => parseElem T (e.json T) := by
  simp [parseJSON, listSet, List.lookup_cons, List.filterMap_map]

theorem Key.json_cases (k : Key) : (∃ a, k = .addr (.one a)) ∨
    ∃ fields, k.json T = .obj fields ∧ fields.lookup "elem" = none ∧ fields.lookup "val" = none ∧
      fields.lookup "timeout" = none ∧ fields.lookup "expires" = none := by
  cases k with
  | addr s =>
    cases s with
    | one a => exact .inl ⟨a, rfl⟩
    | net n | range lo hi => exact .inr ⟨_, rfl, rfl, rfl, rfl, rfl⟩
  | pair s t | bound i a | boundMAC i a m => exact .inr ⟨_, rfl, rfl, rfl, rfl, rfl⟩

/-- The parser reads the key of an element, bare or wrapped, and its times; an element whose key has no address is not there. -/
theorem parseElem_json (e : Live) : parseElem T (e.json T) =
    if (parseValue T (e.key.json T)).ip.isSome then
      some { parseValue T (e.key.json T) with timeout := e.lease.timeoutSeconds, expires := e.lease.expiresSeconds } else none := by
  obtain ⟨key, lease, noted⟩ := e
  cases lease with
  | timed timeout left => simp [Live.json, parseElem, List.lookup_cons, number, Lease.timeoutSeconds, Lease.expiresSeconds]
  | permanent =>
    cases noted with
    | true => simp [Live.json, parseElem, List.lookup_cons, number, Lease.timeoutSeconds, Lease.expiresSeconds]
    | false =>
      obtain ⟨a, rfl⟩ | ⟨fields, hj, helem, hval, htimeout, hexpires⟩ := Key.json_cases (T := T) key
      · simp [Live.json, Key.json, AddrSpan.json, parseElem, parseValue, T.parseIP_ipText, Element.empty, Lease.timeoutSeconds,
          Lease.expiresSeconds]
      · simp [Live.json, hj, parseElem, helem, hval, htimeout, hexpires, number, Lease.timeoutSeconds, Lease.expiresSeconds]

theorem concatPart_ipText (el : Element) (a : BitVec 32) : concatPart T el (.str (T.ipText a)) = { el with ip := some (.v4 a) } := by
  simp [concatPart, T.parseIP_ipText]

theorem concatPart_macText (el : Element) (m : BitVec 48) : concatPart T el (.str (T.macText m)) = { el with mac := some m } := by
  simp [concatPart, T.parseIP_macText, T.parseMAC_macText]

theorem concatPart_iface (i : String) :
    concatPart T .empty (.str i) = { Element.empty with iface := i } ∨ (concatPart T .empty (.str i)).iface = "" := by
  cases hip : T.parseIP i with
  | some ip => exact .inr (by simp [concatPart, hip, Element.empty])
  | none =>
    cases hmac : T.parseMAC i with
    | some mac => exact .inr (by simp [concatPart, hip, hmac, Element.empty])
    | none =>
      by_cases hi : i = ""
      · subst hi
        exact .inr (by simp [concatPart, hip, hmac, Element.empty])
      · exact .inl (by simp [concatPart, hip, hmac, hi])

theorem concatPart_port (el : Element) (p : BitVec 16) (h : el.port = 0) :
    concatPart T el (.num p.toNat) = { el with port := p.toNat } := by
  have lt := p.isLt
  by_cases hp : p.toNat = 0
  · simp only [concatPart, hp]
    cases el
    simp_all
  · simp only [concatPart]
    rw [if_pos (by omega), Int.toNat_natCast]

end

end StayConnect.Netcfg
