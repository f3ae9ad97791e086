import DescriptorRings.Machine.Notification
import DescriptorRings.Machine.Reception
import DescriptorRings.Machine.Transmission

/-!
# The engine

An engine is both rings, the arbiter and a pool of its own over one adapter.  It adds the order in
which they are used together: the pool before the rings, both directions started or neither,
notifications silenced before anything is cancelled, and at the end every direction switched off
before the pool loses its last reference.
-/

namespace DescriptorRings

namespace Machine

/-! ## Making an engine -/

/-- The two rings of an engine, over the pool at a place. -/
def createRings (c : Config) (place : Nat) : Except Refusal (TxRing × RxRing) :=
  match TxRing.create c.txSlots c.queueDepth with
  | .error cause => .error cause
  | .ok tx => (RxRing.create place c.bufferSize c.rxSlots c.leadingPad).map fun rx => (tx, rx)

/-- Makes an engine.  Nothing is posted, and nothing is switched on. -/
def createEngine (m : Machine) (c : Config) : Except Refusal Unit × Machine :=
  match c.validate with
  | .error cause => (.error cause, m)
  | .ok () =>
    match m.createPool c.bufferCount c.bufferSize c.bufferAlign with
    | (.error cause, m) => (.error cause, m)
    | (.ok place, m) =>
      match createRings c place with
      | .error cause => (.error cause, m.dropPool place)
      | .ok (tx, rx) =>
        let m := { m with engine := some ⟨c, place⟩, tx := some tx, rx := some rx }
        (.ok (), m.createArbiter.give (.engineCreated c.txSlots c.rxSlots c.bufferCount))

/-! ## Running it -/

/-- Starts both rings.  If the receive ring cannot be filled the transmit ring is cancelled. -/
def startEngine (m : Machine) : Except Refusal Unit × Machine :=
  match m.startTx with
  | (.error cause, m) => (.error cause, m)
  | (.ok (), m) =>
    match m.startRx with
    | (.error cause, m) => (.error cause, m.cancelTx)
    | (.ok (), m) => (.ok (), m)

/-- Disarms both directions, cancels both rings, and serves each once more, so that everything that
they hold is given back. -/
def stopEngine (m : Machine) (u : Upper) : Served :=
  let m := (m.setArmed .tx false).setArmed .rx false
  let s := m.cancelTx.cancelRx.advanceTx u
  let ignored := s.count
  (s.machine.advanceRx s.upper).onMachine fun m => m.give (.engineStopped ignored)

/-- Serves the ring of a direction if its cause is among those pending. -/
def serveIfPending (pending cause : UInt32) (advance : Machine → Upper → Served) (s : Served) :
    Served :=
  if hasBits pending cause then advance s.machine s.upper else s

/-- Serves an interrupt, and answers with the causes that were pending.  Bits of the status register
that name no cause are left alone. -/
def interrupt (m : Machine) (u : Upper) : UInt32 × Served :=
  let (status, m) := m.read .irqStatus
  let pending := IrqMask.table.restrict status
  if pending = 0 then (pending, .start u m)
  else
    let (fired, s) := m.signal u pending
    let s := s.onMachine fun m => m.give (.engineInterrupt pending (Direction.masks fired))
    let s := serveIfPending pending IrqMask.txDone advanceTx s
    (pending, serveIfPending pending IrqMask.rxDone advanceRx s)

/-! ## Several adapters -/

/-- Puts one more adapter aside, with nothing over it. -/
def annex (m : Machine) (a : Adapter) : Machine := { m with aside := m.aside ++ [{ adapter := a }] }

/-- Brings what waits at a place aside to work, and puts what is at work there. -/
def exchange (m : Machine) (j : Nat) : Machine :=
  match m.aside[j]? with
  | none => m
  | some a =>
    { m with
      adapter := a.adapter
      tx := a.tx
      rx := a.rx
      arbiter := a.arbiter
      engine := a.engine
      aside := m.aside.set j m.atWork }

/-! ## Taking parts down -/

/-- Takes away the rings and the arbiter.  The pool that the receive ring drew from loses a
reference. -/
def dropRings (m : Machine) : Machine :=
  let place := m.rx.map RxRing.pool
  let m := { m with engine := none, tx := none, rx := none, arbiter := none }
  match place with
  | some place => m.reapPool place
  | none => m

/-- Drops an engine: everything is switched off, posted buffers go back to the pool, and then the
parts go.  The upper layer is not called. -/
def dropEngine (m : Machine) : Machine :=
  let m := (m.write .irqEnable 0).cancelTx.cancelRx
  let m := (m.advanceRx .silent).machine
  let outstanding := (m.tx.map TxRing.outstanding).getD 0
  (m.giveIf (outstanding != 0) (.engineLostPackets outstanding)).dropRings

end Machine

end DescriptorRings
