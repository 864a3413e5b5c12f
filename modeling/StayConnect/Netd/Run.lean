import StayConnect.Netd.Submit
import StayConnect.Transition

/-!
# netd as a state machine

What can happen to a running netd, one operation at a time: each holds the lock of `phase3Shaping`
from its start to its end, except the continuity tick, whose parts are operations of their own, and
the arrival of a plan, which is noted before the lock is waited for. Time passes inside an operation
(every external call takes as long as the environment says) and between operations.
-/

namespace StayConnect.Netd

open Framing Transition

inductive Op where
  | arrive (gen : Int)
  | submit (env : Envelope) (now : Nat)
  /-- netd dies after a plan was put in force and before its record is saved, and is started again. -/
  | crash (env : Envelope) (now : Nat) (cfg : Config)
  | renewDue (now : Nat)
  | endFlows (ip : BitVec 32) (bridge : Bytes) (now : Nat)
  | continuityRevoke (sessionIDs entitlementIDs : List Bytes) (ip bridge : Bytes) (now : Nat)
  | tickRead (now : Nat)
  | tickBegin
  | tickProbe
  | tickApply
  /-- `scopeWatch` adopts another mode. -/
  | scope (mode : Mode)
  | restart (cfg : Config)
  | reboot (bootID : Bytes) (cfg : Config)
  | wait (ms : Nat)
  /-- A class carries bytes. -/
  | traffic (slot : Slot) (bytes : Nat)

/-- The machine starts again: nothing of the kernel's state survives. -/
def rebootKernel (bootID : Bytes) : NetdM Unit :=
  modify fun w => { w with kern := {}, clock := 0, bootID }

/-- A crash inside `submit`, between enforcement and the record. -/
def crashedSubmit (env : Envelope) (now : Nat) (cfg : Config) : NetdM Unit := do
  let locked ← monoNow
  match ← admission env now with
  | .error _ => restart cfg
  | .ok unreadable =>
    let _ ← enforcePlan env now locked unreadable
    restart cfg

def tickStep : NetdM Unit := do
  match (← get).tick with
  | .idle => return ()
  | .read now nowBoot => contTickBegin now nowBoot
  | .asking now nowBoot tenantID siteID ids => contTickProbe now nowBoot tenantID siteID ids
  | .answered now nowBoot tenantID siteID out => contTickApply now nowBoot tenantID siteID out

def carryTraffic (slot : Slot) (bytes : Nat) : NetdM Unit := modify fun w => { w with
  kern.tc := match w.kern.tc.lookup slot with
    | some c => w.kern.tc.insert slot { c with bytes := c.bytes + bytes }
    | none => w.kern.tc }

def carryOut : Op → NetdM Unit
  | .arrive gen => noteArrival gen
  | .submit env now => do let _ ← submit env now
  | .crash env now cfg => crashedSubmit env now cfg
  | .renewDue now => renewDue now
  | .endFlows ip bridge now => do let _ ← endFlows ip bridge now
  | .continuityRevoke ss es ip bridge now => do let _ ← continuityRevoke ss es ip bridge now
  | .tickRead now => contTickRead now
  | .tickBegin | .tickProbe | .tickApply => tickStep
  | .scope mode => modifyMem fun m => { m with mode }
  | .restart cfg => restart cfg
  | .reboot bootID cfg => do rebootKernel bootID; restart cfg
  | .wait ms => modify fun w => { w with clock := w.clock + ms }
  | .traffic slot bytes => carryTraffic slot bytes

/-- When an operation can happen: a plan has arrived before it is submitted, and the parts of a tick
come in their order. -/
def Op.enabled (w : World) : Op → Bool
  | .submit env _ | .crash env _ _ => env.planGeneration ≤ w.mem.arrivedGen
  | .tickRead _ => w.tick = .idle
  | .tickBegin => match w.tick with | .read .. => true | _ => false
  | .tickProbe => match w.tick with | .asking .. => true | _ => false
  | .tickApply => match w.tick with | .answered .. => true | _ => false
  | _ => true

def step (w : World) (op : Op) : Option World :=
  if op.enabled w then some ((carryOut op).run w).2 else none

/-- netd just started on a booted machine, with whatever the files and the kernel hold. -/
structure Started (w : World) : Prop where
  log : w.log = []
  mem : ∃ cfg : Config, w.mem = { mode := cfg.mode, fastPath := cfg.fastPath, noBatch := cfg.noBatch }
  pass : w.pass = {}
  tick : w.tick = .idle

end StayConnect.Netd
