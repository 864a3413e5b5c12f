import StayConnect.Pms.Admission

/-!
# The read loop of a link

`serve` of `adapter_fias.go` reads one frame after another: it parses it, asks for the resyncs that are due, and hands what the
record says to the sink of `worker.go`, which stages, admits or publishes it in the database. Every call to the database and
every write to the socket may fail, which ends the cycle. Times are nanoseconds. The progress shown to an operator and the link's
diagnostics are left out.
-/

namespace StayConnect.Pms
open StayConnect.Framing

def minute : Int := 60000000000

def finResyncCheckEvery : Int := minute
def finResyncBackoffMin : Int := 10 * minute
def finResyncBackoffMax : Int := 40 * minute
def finResyncStartWait : Int := 5 * minute

/-- `finResyncScheduler`; a time that was never set is absent. -/
structure FinResyncScheduler where
  lastCheck : Option Int
  nextAllowed : Option Int
  requestedAt : Int
  backoff : Int
  awaitingStart : Bool

namespace FinResyncScheduler

def new : FinResyncScheduler := ⟨none, none, 0, 0, false⟩

def shouldRequest (f : FinResyncScheduler) (now : Int) (resyncing due : Bool) : FinResyncScheduler × Bool :=
  if resyncing then (f, false)
  else if f.lastCheck.any fun t => now - t < finResyncCheckEvery then (f, false)
  else
    let f := { f with lastCheck := some now }
    if f.nextAllowed.any fun t => now < t then (f, false) else (f, due)

def requested (f : FinResyncScheduler) (now : Int) : FinResyncScheduler :=
  let backoff := if f.backoff = 0 then finResyncBackoffMin else f.backoff
  { f with
    requestedAt := now
    awaitingStart := true
    nextAllowed := some (now + backoff)
    backoff := if finResyncBackoffMax < backoff * 2 then finResyncBackoffMax else backoff * 2 }

def started (f : FinResyncScheduler) : FinResyncScheduler := { f with awaitingStart := false }

def completed (f : FinResyncScheduler) : FinResyncScheduler :=
  { f with awaitingStart := false, backoff := finResyncBackoffMin }

def unanswered (f : FinResyncScheduler) (now : Int) : FinResyncScheduler × Bool :=
  if f.awaitingStart && decide (finResyncStartWait < now - f.requestedAt) then ({ f with awaitingStart := false }, true)
  else (f, false)

end FinResyncScheduler

/-- `TextOps` with `pms.NormalizeRoom`, under which a sweep counts rooms. -/
structure RosterOps extends TextOps where
  roomKey : Bytes → Bytes

/-- What `serve` reads of the revision. -/
structure Revision where
  heartbeatTimeout : Int
  completeSyncBound : Int

def periodicSweepAfter (r : Revision) : Int :=
  if 0 < r.heartbeatTimeout ∧ r.heartbeatTimeout < r.completeSyncBound then r.completeSyncBound - r.heartbeatTimeout
  else r.completeSyncBound.tdiv 2

/-- The variables of the read loop. The rooms seen are sets. -/
structure Link where
  resyncing : Bool
  occupiedSeen : List Bytes
  vacantSeen : List Bytes
  rosterRecords : Nat
  vacantRecords : Nat
  skippedNoIdentity : Nat
  lastReportedSkipped : Nat
  lastFull : Option Int
  fin : FinResyncScheduler

/-- What a sweep described: the rooms, and in how many it contradicted itself. -/
structure Coverage where
  rooms : List Bytes
  roster : Nat
  vacant : Nat
  conflicts : Nat

/-- `workerSink`. -/
structure Sink (δ : Type) where
  synced : Bool
  resyncing : Bool
  resyncGen : Nat
  received : Nat
  adapterSkipped : Nat
  dupSkipped : Nat
  stageBuf : List (Event δ)
  coverage : Option Coverage

inductive SyncStatus where
  | resyncRequired
  | resyncInProgress
  | inSync
  deriving DecidableEq, Repr

inductive ContinuityStatus where
  | continuous
  | gapDetected

/-- The row of the interface in `pms_interface_runtime` and its rows of `stay_events`: `staged` are the RESYNC rows, by
generation. -/
structure Runtime (δ : Type) where
  resyncGenerationSeq : Nat
  publishedResyncGeneration : Option Nat
  syncStatus : SyncStatus
  continuityStatus : ContinuityStatus
  staged : List (Nat × Event δ)
  live : List (Event δ)
  coverage : List (Nat × Coverage)

/-- What the loop does that others see. -/
inductive Effect where
  /-- A resync request was written. -/
  | resyncRequested
  /-- An acknowledgement was written. -/
  | acknowledged
  | continuityFault
  | published (generation : Nat)
  /-- `pms_roster_reconcile` was run on a published generation. -/
  | reconciled (generation : Nat)
  /-- The relay's view of a reservation. -/
  | observedGuest (recordType : RecordType) (reservation room : Bytes)
  /-- A posting answer offered to the command that waits for it. -/
  | postingAnswer (body : Bytes)
  deriving DecidableEq, Repr

structure Feed (δ : Type) where
  link : Link
  sink : Sink δ
  runtime : Runtime δ
  /-- Whether the relay port carries posting commands. -/
  steady : Bool
  effects : List Effect

inductive Call where
  | writeDR
  | writeLA
  | updateTransport
  | markGapAndRequireResync
  | allocateResyncGeneration
  | updateSync
  | stageResyncEvents
  | publishResyncGeneration
  | recordResyncCoverage
  | reconcileRoster
  | admitLiveEventAndContinuity
  deriving DecidableEq, Repr

/-- What holds while a frame is handled: the time, whether an operator's command waits, whether the database says that a
financial resync is due, and the calls that fail. -/
structure Around where
  now : Int
  operator : Bool
  financialDue : Bool
  fails : List Call

def Around.ok (w : Around) (c : Call) : Bool := !w.fails.contains c

/-- The step at which a cycle ended. -/
inductive ServeStep where
  | read
  | parseControl
  | continuityFault
  | writeResyncReq
  | heartbeat
  | writeAck
  | inboundLinkEnd
  | resyncStart
  | publishResync
  | domainRecord

/-- What is left of a frame: the state, and the step that ended the cycle, if one did. -/
abbrev Outcome (δ : Type) := Feed δ × Option ServeStep

/-- The rest of a frame, unless the cycle has ended. -/
def Outcome.andThen {δ : Type} (o : Outcome δ) (f : Feed δ → Outcome δ) : Outcome δ :=
  match o with
  | (s, none) => f s
  | (s, some step) => (s, some step)

namespace Feed

variable {δ : Type} (s : Feed δ)

def emit (e : Effect) : Feed δ := { s with effects := s.effects ++ [e] }

/-- The state of a cycle that has asked for its first resync. -/
def start (db : Runtime δ) : Feed δ where
  link := ⟨true, [], [], 0, 0, 0, 0, none, .new⟩
  sink := ⟨false, false, 0, 0, 0, 0, [], none⟩
  runtime := { db with syncStatus := .resyncRequired }
  steady := false
  effects := [.resyncRequested]

def onContinuityFault (w : Around) : Outcome δ :=
  let s := { s with sink := { s.sink with synced := false } }
  if w.ok .markGapAndRequireResync then
    (({ s with runtime := { s.runtime with continuityStatus := .gapDetected, syncStatus := .resyncRequired } }).emit
      .continuityFault, none)
  else (s, some .continuityFault)

def onResyncStart (w : Around) : Outcome δ :=
  if w.ok .allocateResyncGeneration then
    let g := s.runtime.resyncGenerationSeq + 1
    let s := { s with
      runtime := { s.runtime with resyncGenerationSeq := g }
      sink := { s.sink with
        resyncGen := g, resyncing := true, received := 0, adapterSkipped := 0, dupSkipped := 0, stageBuf := [] } }
    if w.ok .updateSync then ({ s with runtime := { s.runtime with syncStatus := .resyncInProgress } }, none)
    else (s, some .resyncStart)
  else (s, some .resyncStart)

/-- `StageResyncEvents`: a row repeated inside one generation is inserted once. -/
def stageRow [DecidableEq δ] (g : Nat) (rows : List (Nat × Event δ)) (ev : Event δ) : List (Nat × Event δ) :=
  if rows.any fun r => r.1 == g && r.2.identity == ev.identity then rows else rows ++ [(g, ev)]

/-- `flushStaged`: the buffer is emptied whether or not it could be written. -/
def flushStaged [DecidableEq δ] (w : Around) (step : ServeStep) : Outcome δ :=
  let buffered := s.sink.stageBuf
  if buffered = [] then (s, none)
  else
    let s := { s with sink := { s.sink with stageBuf := [] } }
    if w.ok .stageResyncEvents then
      let rows := buffered.foldl (stageRow s.sink.resyncGen) s.runtime.staged
      let inserted := rows.length - s.runtime.staged.length
      ({ s with
        runtime := { s.runtime with staged := rows }
        sink := { s.sink with
          received := s.sink.received + inserted, dupSkipped := s.sink.dupSkipped + (buffered.length - inserted) } }, none)
    else (s, some step)

/-- What `OnResyncComplete` does after the publication: neither part can fail it. -/
def afterPublish (w : Around) : Feed δ :=
  let s := match s.sink.coverage with
    | some c =>
      { s with
        runtime := if w.ok .recordResyncCoverage then
          { s.runtime with coverage := s.runtime.coverage ++ [(s.sink.resyncGen, c)] } else s.runtime
        sink := { s.sink with coverage := none } }
    | none => s
  if w.ok .reconcileRoster then s.emit (.reconciled s.sink.resyncGen) else s

/-- `OnResyncComplete`: nothing is published unless a window was open. -/
def onResyncComplete [DecidableEq δ] (w : Around) : Outcome δ :=
  if !s.sink.resyncing || s.sink.resyncGen == 0 then (s, none)
  else (s.flushStaged w .publishResync).andThen fun s =>
    if w.ok .publishResyncGeneration then
      let s := { s with
        runtime := { s.runtime with
          publishedResyncGeneration := some s.sink.resyncGen, syncStatus := .inSync, continuityStatus := .continuous }
        sink := { s.sink with resyncing := false, synced := true } }
      ((s.emit (.published s.sink.resyncGen)).afterPublish w, none)
    else (s, some .publishResync)

def stageBatchSize : Nat := 50

def buffer (ev : Event δ) : Feed δ := { s with sink := { s.sink with stageBuf := s.sink.stageBuf ++ [ev] } }

/-- `OnDomainEvent`: staged inside a window, dropped while the barrier is up, admitted otherwise. -/
def onDomainEvent [DecidableEq δ] (w : Around) (ev : Event δ) : Outcome δ :=
  if s.sink.resyncing then
    if stageBatchSize ≤ (s.buffer ev).sink.stageBuf.length then (s.buffer ev).flushStaged w .domainRecord
    else (s.buffer ev, none)
  else if !s.sink.synced then (s, none)
  else if !w.ok .admitLiveEventAndContinuity then (s, some .domainRecord)
  else if s.runtime.live.any fun e => e.identity == ev.identity then (s, none)
  else
    ({ s with runtime := { s.runtime with live := admitLive s.runtime.live ev, continuityStatus := .continuous } }, none)

def recordSkipped (n : Nat) : Feed δ := { s with sink := { s.sink with adapterSkipped := n } }

/-- A resync request written by the loop. -/
def requestResync (w : Around) : Outcome δ :=
  if w.ok .writeDR then (({ s with link := { s.link with resyncing := true } }).emit .resyncRequested, none)
  else (s, some .writeResyncReq)

/-- A domain record that could not be admitted. -/
def fault (w : Around) : Outcome δ :=
  Outcome.andThen (s.onContinuityFault w) fun s => if s.link.resyncing then (s, none) else s.requestResync w

/-- The operator's resync: the claim finds no command while a window is open in the database. -/
def operatorResync (w : Around) : Outcome δ :=
  if !s.link.resyncing && w.operator && s.runtime.syncStatus ≠ .resyncInProgress then s.requestResync w else (s, none)

def periodicResync (rev : Revision) (w : Around) : Outcome δ :=
  if !s.link.resyncing && 0 < rev.completeSyncBound &&
      s.link.lastFull.any fun t => periodicSweepAfter rev ≤ w.now - t then
    s.requestResync w
  else (s, none)

/-- A financial resync that was never begun is given up. -/
def giveUpFinancial (w : Around) : Feed δ :=
  let (fin, unanswered) := s.link.fin.unanswered w.now
  { s with link := { s.link with resyncing := if unanswered && s.link.resyncing then false else s.link.resyncing, fin } }

/-- Whether a financial resync is to be asked for. -/
def wantsFinancial (w : Around) : Feed δ × Bool :=
  let (fin, wanted) := s.link.fin.shouldRequest w.now s.link.resyncing w.financialDue
  ({ s with link := { s.link with fin } }, wanted)

def financialRequested (w : Around) : Feed δ := { s with link := { s.link with fin := s.link.fin.requested w.now } }

def financialResync (w : Around) : Outcome δ :=
  let (s, wanted) := (s.giveUpFinancial w).wantsFinancial w
  if wanted then Outcome.andThen (s.requestResync w) fun s => (s.financialRequested w, none) else (s, none)

/-- The resyncs that are due, before a record is handled. -/
def dueResyncs (rev : Revision) (w : Around) : Outcome δ :=
  Outcome.andThen (s.operatorResync w) fun s => Outcome.andThen (s.periodicResync rev w) fun s => s.financialResync w

/-- The number of records skipped, told to the sink. -/
def reportSkipped : Feed δ :=
  ({ s with link := { s.link with lastReportedSkipped := s.link.skippedNoIdentity } }).recordSkipped s.link.skippedNoIdentity

/-- A record that describes no stay: it is counted, and reported in batches. -/
def skip : Feed δ :=
  let s := { s with link := { s.link with skippedNoIdentity := s.link.skippedNoIdentity + 1 } }
  if 25 ≤ s.link.skippedNoIdentity - s.link.lastReportedSkipped then s.reportSkipped else s

def resyncStart (w : Around) : Outcome δ :=
  ({ s with
    link := { s.link with
      resyncing := true, fin := s.link.fin.started, occupiedSeen := [], vacantSeen := [], rosterRecords := 0, vacantRecords := 0
      skippedNoIdentity := 0, lastReportedSkipped := 0 } }).onResyncStart w

/-- The union of what a sweep saw, and the rooms it saw both occupied and vacant. -/
def Link.coverage (l : Link) : Coverage where
  rooms := l.occupiedSeen ++ l.vacantSeen.filter fun r => !l.occupiedSeen.contains r
  roster := l.rosterRecords
  vacant := l.vacantRecords
  conflicts := (l.occupiedSeen.filter fun r => l.vacantSeen.contains r).length

/-- `RecordCoverage`, inside a window. -/
def recordCoverage : Feed δ :=
  if s.link.resyncing then { s with sink := { s.sink with coverage := some (Link.coverage s.link) } } else s

def closeWindow (w : Around) : Feed δ :=
  { s with link := { s.link with resyncing := false, lastFull := some w.now, fin := s.link.fin.completed } }

def resyncEnd [DecidableEq δ] (w : Around) : Outcome δ :=
  let s := s.recordCoverage
  let s := if s.link.skippedNoIdentity ≠ s.link.lastReportedSkipped then s.reportSkipped else s
  (s.closeWindow w).onResyncComplete w

end Feed

def ParsedRecord.reservationAbsent (T : TextOps) (pr : ParsedRecord) : Bool := (pr.values fcReservation).all T.blank

def ParsedRecord.roomOf (T : RosterOps) (pr : ParsedRecord) : Bytes := ((pr.values fcRoom).head?.map T.roomKey).getD []

namespace Feed

variable {δ : Type} [DecidableEq δ] (A : Adapter δ) (T : RosterOps) (s : Feed δ)

/-- The room of a vacant one is part of what the sweep described. -/
def sawVacant (pr : ParsedRecord) : Feed δ :=
  if pr.roomOf T = [] then s
  else { s with link := { s.link with
    vacantSeen := s.link.vacantSeen.insert (pr.roomOf T), vacantRecords := s.link.vacantRecords + 1 } }

/-- The room of an event inside a sweep. -/
def sawOccupied (ev : Event δ) : Feed δ :=
  if s.link.resyncing && ev.room ≠ [] then
    { s with link := { s.link with
      occupiedSeen := s.link.occupiedSeen.insert (T.roomKey ev.room)
      rosterRecords := if ev.recordType ≠ .GO then s.link.rosterRecords + 1 else s.link.rosterRecords } }
  else s

/-- An event that is valid: shown to the relay, counted in the sweep, and handed to the sink. -/
def admitEvent (w : Around) (ev : Event δ) : Outcome δ :=
  ((s.emit (.observedGuest ev.recordType ev.reservation ev.room)).sawOccupied T ev).onDomainEvent w ev

def guestRecord (w : Around) (body : Bytes) (pr : ParsedRecord) : Outcome δ :=
  if pr.recordType == .GO && s.link.resyncing && pr.reservationAbsent T.toTextOps then ((s.sawVacant T pr).skip, none)
  else match A.toEvent body with
    | .error (.identityAbsent _) => (s.skip, none)
    | .error .malformed => s.fault w
    | .ok ev => if ev.validate T.toTextOps then s.admitEvent T w ev else s.fault w

def record (w : Around) (body : Bytes) (pr : ParsedRecord) : Outcome δ :=
  match pr.recordType with
  | .LS | .LA =>
    if !w.ok .updateTransport then (s, some .heartbeat)
    else if !w.ok .writeLA then (s, some .writeAck)
    else (s.emit .acknowledged, none)
  | .LE => (s, some .inboundLinkEnd)
  | .PA => (s.emit (.postingAnswer body), none)
  | .DS => s.resyncStart w
  | .DE => s.resyncEnd w
  | .DR => (s, none)
  | .GI | .GC | .GO => s.guestRecord A T w body pr

def intendedDomain (body : Bytes) : Bool := ((RecordType.ofCode (body.take 2)).map RecordType.isDomain).getD false

def frame (rev : Revision) (w : Around) (body : Bytes) : Outcome δ :=
  match parseStrictRecord body with
  | .error _ => if intendedDomain body then s.fault w else (s, some .parseControl)
  | .ok pr => Outcome.andThen (s.dueResyncs rev w) fun s => s.record A T w body pr

/-- What a read gives: a frame, or the end of the link (a timeout included). -/
inductive Inbound where
  | frame (body : Bytes)
  | lost

/-- The top of the loop: posting commands are carried only between resyncs. -/
def setSteady {δ : Type} (s : Feed δ) : Feed δ := { s with steady := !s.link.resyncing }

def step (rev : Revision) (w : Around) : Inbound → Outcome δ
  | .frame body => s.setSteady.frame A T rev w body
  | .lost => (s.setSteady, some .read)

/-- The turns of a cycle, up to the one that ends it. -/
def run (rev : Revision) (s : Feed δ) : List (Around × Inbound) → Outcome δ
  | [] => (s, none)
  | (w, i) :: rest => Outcome.andThen (s.step A T rev w i) fun s => run rev s rest

end Feed

end StayConnect.Pms
