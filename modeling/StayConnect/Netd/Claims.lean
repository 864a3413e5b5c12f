import StayConnect.Netd.Batch

/-!
# What a plan asks for

The first loop of `reconcileLocked` (`phase3_shaping.go`): which sessions are to be shaped, on which
class, which are to be torn down, and which are withheld because two sessions claim one class. The
loop only reads the plan, so it is a fold over the plan's sessions; what it does for sessions of a
removed network (`removed`) is carried out after it.
-/

namespace StayConnect.Netd

open Framing

/-- The non-empty bridges a plan declares. -/
def declaredBridges (env : Envelope) : List Bytes := sortedBytes (env.managedBridges.filter (· ≠ []))

/-- The bridges whose upload device name is taken by another bridge, with the reports. -/
structure SharedUploads where
  owner : Map Bytes Bytes := fun _ => none
  shared : List Bytes := []
  problems : List Problem := []

/-- One bridge of the upload-device check. -/
def SharedUploads.add (u : SharedUploads) (b : Bytes) : SharedUploads :=
  match u.owner (ifbName b) with
  | some other => { u with shared := b :: other :: u.shared, problems := u.problems ++ [.sharedUpload other b] }
  | none => { u with owner := Function.update u.owner (ifbName b) (some b) }

/-- `ifbShared`: two bridges with one upload device would meter each other's guests. -/
def sharedUploads (bridges : List Bytes) : SharedUploads := bridges.foldl SharedUploads.add {}

/-- What the loop reads besides the plan entry. -/
structure ClaimCtx where
  parseIP : Bytes → Option Ip
  nets : Bytes → List Subnet
  retired : Bytes → Bool
  bridges : List Bytes
  shared : List Bytes

/-- What the loop has found: `desired` by bridge and minor, the contested classes (`clashed`), the
sessions to tear down and those of removed networks, the failures and the other problems. -/
structure Claims where
  desired : Table Slot Wanted := ∅
  clashed : Map Slot Unit := fun _ => none
  tear : List Session := []
  removed : List Session := []
  failures : Nat := 0
  problems : List Problem := []

def Claims.fail (c : Claims) (p : Problem) : Claims :=
  { c with failures := c.failures + 1, problems := c.problems ++ [p] }

/-- An entitled, shapeable session claims its class: the second claimant of a class withholds both,
and the class stays contested. -/
def Claims.claim (c : Claims) (slot : Slot) (x : Wanted) : Claims :=
  if (c.clashed slot).isSome then c.fail (.contested slot.device x.s.sessionID slot.minor)
  else
    match c.desired.lookup slot with
    | some other =>
      if other.s.sessionID ≠ x.s.sessionID then
        let c := c.fail (.conflict slot.device other.s.sessionID x.s.sessionID slot.minor)
        { c with
          clashed := Function.update c.clashed slot (some ())
          desired := c.desired.erase slot }
      else { c with desired := c.desired.insert slot x }
    | none => { c with desired := c.desired.insert slot x }

def Claims.add (x : ClaimCtx) (c : Claims) (s : Session) : Claims :=
  if s.bridge = [] then c.fail (.noBridge s.sessionID)
  else if s.entitled && x.retired s.bridge then
    { c with removed := c.removed ++ [s], problems := c.problems ++ [.networkRemoved s.sessionID] }
  else if s.bridge ∉ x.bridges then c.fail (.undeclaredBridge s.sessionID s.bridge)
  else if !s.entitled then { c with tear := c.tear ++ [s] }
  else if s.bridge ∈ x.shared then c.fail (.bridgeSharesUpload s.sessionID s.bridge)
  else
    match x.parseIP s.ip with
    | none => c.fail (.unusableEntry s.sessionID)
    | some ip =>
      if s.downKbps ≤ 0 || s.upKbps ≤ 0 then c.fail (.unusableEntry s.sessionID)
      else
        match minorFor x.nets ⟨s.bridge, ip⟩ with
        | none => c.fail (.unshapeable s.sessionID)
        | some minor => c.claim ⟨s.bridge, minor⟩ ⟨s, ⟨s.bridge, ip⟩⟩

def claimsOf (x : ClaimCtx) (sessions : List Session) : Claims := sessions.foldl (Claims.add x) {}

/-- The desired sessions of a bridge in the order of their minors. -/
def byMinor (desired : Table Slot Wanted) (bridge : Bytes) : List (Nat × Wanted) :=
  (desired.entries.filterMap fun e => if e.1.device = bridge then some (e.1.minor, e.2) else none).insertionSort
    fun a b => a.1 ≤ b.1

end StayConnect.Netd
