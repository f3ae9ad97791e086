import DescriptorRings.Script.Snapshot
import DescriptorRings.Script.Step

/-!
# Sessions

A session builds parts over a fresh adapter and a fresh allocator, runs a script on them step by
step, and takes everything down again.  Its account tells, for the building, for each step and for
the taking down, what it came to, which events it caused, and how the parts stood afterwards.
-/

namespace DescriptorRings

/-! ## Plans -/

/-- A pool to be made. -/
structure PoolPlan where
  /-- Buffers. -/
  count : Nat
  /-- Bytes in each. -/
  size : Nat
  /-- Their alignment. -/
  align : Nat
  deriving DecidableEq, Repr

/-- A transmit ring to be made. -/
structure TxPlan where
  /-- Slots. -/
  slots : Nat
  /-- Most outstanding packets. -/
  depth : Nat := 64
  deriving DecidableEq, Repr

/-- A receive ring to be made. -/
structure RxPlan where
  /-- Slots. -/
  slots : Nat
  /-- Bytes in front of a frame. -/
  pad : Nat := 2
  /-- The place of the pool to draw from. -/
  pool : Nat := 0
  deriving DecidableEq, Repr

/-- What a session builds, and what it runs. -/
structure Plan where
  /-- What registers hold before anything is built. -/
  registers : List (Register × UInt32) := []
  /-- The pools. -/
  pools : List PoolPlan := []
  /-- The engine. -/
  engine : Option Config.Choice := none
  /-- A transmit ring without an engine. -/
  tx : Option TxPlan := none
  /-- A receive ring without an engine. -/
  rx : Option RxPlan := none
  /-- Whether there is an arbiter without an engine. -/
  arbiter : Bool := false
  /-- Which events are kept. -/
  detail : Detail := .outward
  /-- The least grave level of notices given. -/
  level : Option Level := none
  /-- How many allocations are granted. -/
  budget : Option Nat := none
  /-- What is run. -/
  steps : List Step := []

namespace Plan

/-- How many receive slots the adapter goes round. -/
def receiveSlots (p : Plan) : Nat :=
  match p.engine.bind Config.Choice.rx, p.rx with
  | some n, _ => max n 1
  | none, some ring => max ring.slots 1
  | none, none => Config.defaultRxSlots

/-- The machine before anything is built. -/
def machine (p : Plan) : Machine where
  adapter :=
    { rxSlots := p.receiveSlots
      registers := p.registers.foldl (fun f r => f.set r.1 r.2) {} }
  memory := { allocator := .orderly Allocator.usualDistance p.budget }
  journal := { detail := p.detail, level := p.level }

end Plan

/-! ## Building -/

namespace Machine

/-- Makes the pool of a plan. -/
def buildPool (p : PoolPlan) (m : Machine) : Outcome × Machine :=
  m.tryCreatePool p.count p.size p.align

/-- Makes the engine of a plan. -/
def buildEngine (c : Config.Choice) (m : Machine) : Outcome × Machine :=
  match c.config with
  | .error fault => (.faulted fault, m)
  | .ok config => m.attempt fun m => m.createEngine config

/-- Makes the transmit ring of a plan. -/
def buildTx (p : TxPlan) (m : Machine) : Outcome × Machine :=
  match TxRing.create p.slots p.depth with
  | .error cause => (.refused cause, m)
  | .ok ring => (.sizes [ring.size.slots, ring.capacity], { m with tx := some ring })

/-- Makes the receive ring of a plan. -/
def buildRx (p : RxPlan) (m : Machine) : Outcome × Machine :=
  match m.poolAt? p.pool with
  | none => (.absent, m)
  | some pool =>
    match RxRing.create p.pool pool.bufferSize p.slots p.pad with
    | .error cause => (.refused cause, m)
    | .ok ring =>
      (.sizes [ring.size.slots, ring.capacity, pool.capacity], { m with rx := some ring })

/-- Makes an arbiter. -/
def buildArbiter (m : Machine) : Outcome × Machine := (.done, m.createArbiter)

end Machine

namespace Plan

/-- The parts of a plan, in the order in which they are made. -/
def parts (p : Plan) : List (Machine → Outcome × Machine) :=
  p.pools.map Machine.buildPool ++ p.engine.toList.map Machine.buildEngine
    ++ p.tx.toList.map Machine.buildTx ++ p.rx.toList.map Machine.buildRx
    ++ if p.arbiter then [Machine.buildArbiter] else []

/-- Makes parts in order. -/
def make : List (Machine → Outcome × Machine) → Machine → List Outcome × Machine
  | [], m => ([], m)
  | part :: rest, m =>
    let (o, m) := part m
    let (os, m) := make rest m
    (o :: os, m)

/-- Makes all parts of a plan. -/
def build (p : Plan) : List Outcome × Machine := make p.parts p.machine

end Plan

/-! ## Running and taking down -/

/-- What something came to, the events that it caused, and how the parts stood afterwards. -/
structure Report (α : Type) where
  /-- What it came to. -/
  result : α
  /-- The events, in order. -/
  events : List Event
  /-- The figures afterwards. -/
  snapshot : Snapshot

namespace Machine

/-- A report of what happened since the journal had `past` events. -/
def report {α : Type} (m : Machine) (past : Nat) (result : α) : Report α where
  result := result
  events := m.journal.since past
  snapshot := m.snapshot

/-- How many events the journal has. -/
def eventCount (m : Machine) : Nat := m.journal.events.size

/-- Runs one step of a script.  Once the machine is stalled, nothing runs any more. -/
def runStep (s : Step) (m : Machine) : Outcome × Machine :=
  if m.stalled.isSome then (.stalled, m) else s.run m

/-- Runs a script, and reports on each step. -/
def runScript : List Step → Machine → List (Report Outcome) × Machine
  | [], m => ([], m)
  | s :: rest, m =>
    let past := m.eventCount
    let (o, m) := m.runStep s
    let r := m.report past o
    let (rs, m) := runScript rest m
    (r :: rs, m)

/-- Drops every frame that is still held, in order. -/
def dropHeldFrames (m : Machine) : Machine :=
  (List.range m.frames.size).foldl (fun m i => (m.obey (.dropFrame i)).2) m

/-- Drops the engine, or else the rings and the arbiter on their own. -/
def dropParts (m : Machine) : Machine :=
  if m.engine.isSome then m.dropEngine else m.dropRings

/-- Drops every reference to a pool that is still there, in order. -/
def dropListedPools (m : Machine) : Machine :=
  (List.range m.pools.size).foldl (fun m place => (m.obey (.dropPool place)).2) m

/-- Takes everything down. -/
def takeDown (m : Machine) : Machine := m.dropHeldFrames.dropParts.dropListedPools

end Machine

/-- The account of a session. -/
structure Account where
  /-- The building of the parts. -/
  made : Report (List Outcome)
  /-- Each step. -/
  steps : List (Report Outcome)
  /-- The taking down. -/
  ended : Report Unit

namespace Plan

/-- Holds a session. -/
def account (p : Plan) : Account :=
  let (os, m) := p.build
  let made := m.report 0 os
  let (steps, m) := m.runScript p.steps
  let past := m.eventCount
  { made := made, steps := steps, ended := m.takeDown.report past () }

end Plan

end DescriptorRings
