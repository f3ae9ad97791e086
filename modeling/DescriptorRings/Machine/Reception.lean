import DescriptorRings.Machine.Upper

/-!
# Serving the receive ring

Starting fills every usable slot at once or none at all: the buffers are acquired as a batch first,
and a batch that is too small is put back.  The doorbell is rung after all descriptors are written
and before the direction is switched on.

Serving a running ring reads the adapter's counter once, and takes in the completions that it
announces one by one.  A completion is read after its slot was passed, its frame is delivered or its
buffer taken back, and then the ring is filled up again, so that a buffer that the upper layer drops
at once is posted again at once.  The doorbell is rung once, at the end.

Throughout, `place` is the place of the pool that the ring draws from.
-/

namespace DescriptorRings

namespace Machine

/-! ## Posting one buffer -/

/-- Writes an acquired buffer into the next slot. -/
def postBuffer (m : Machine) (place : Nat) (b : BufferId) : Except Refusal Unit × Machine :=
  match (m.poolAt? place).bind fun p => (p.addressOf? b).map fun a => (a, p.bufferSize) with
  | none =>
    match m.putBack place b with
    | (.error cause, m) => (.error cause, m)
    | (.ok (), m) => (.error .badState, m)
  | some (address, size) =>
    let slot := (m.rx.map RxRing.tailSlot).getD 0
    match (m.writeRx slot address (UInt32.ofNat size)).markPosted place b with
    | (.error cause, m) => (.error cause, m)
    | (.ok (), m) => (.ok (), m.modifyRx fun r => r.post b)

/-- Does something to each buffer of a list, and stops at the first refusal. -/
def forBuffers (act : BufferId → Machine → Except Refusal Unit × Machine) :
    List BufferId → Machine → Except Refusal Unit × Machine
  | [], m => (.ok (), m)
  | b :: rest, m =>
    match act b m with
    | (.ok (), m) => forBuffers act rest m
    | (.error cause, m) => (.error cause, m)

/-! ## Taking buffers back -/

/-- Takes a posted buffer back, and reports a failure. -/
def recycleOrReport (m : Machine) (place : Nat) (b : BufferId) : Machine :=
  match m.recycle place b with
  | (.ok (), m) => m
  | (.error cause, m) => m.give (.rxRecycleFailed cause)

/-- Takes back all posted buffers, in the order of their slots. -/
def recyclePosted (m : Machine) : Machine :=
  match m.rx.map fun r => (r.pool, r.held) with
  | none => m
  | some (place, held) =>
    let m := held.foldl (fun m b => m.recycleOrReport place b) m
    let m := m.modifyRx RxRing.clear
    m.giveIf (!held.isEmpty) (.rxRecycled held.length)

/-! ## Starting and cancelling -/

/-- A batch of buffers being acquired. -/
structure Batch where
  /-- The buffers acquired so far, the latest first. -/
  buffers : List BufferId
  /-- The machine after that. -/
  machine : Machine

namespace Batch

/-- Acquires one more buffer. -/
def next (place : Nat) (b : Batch) : Bool × Batch :=
  match b.machine.acquire place with
  | (some id, m) => (true, ⟨id :: b.buffers, m⟩)
  | (none, m) => (false, ⟨b.buffers, m⟩)

end Batch

/-- Acquires up to `count` buffers, and answers with them in order. -/
def acquireMany (m : Machine) (place count : Nat) : List BufferId × Machine :=
  let b := loop (Batch.next place) count ⟨[], m⟩
  (b.buffers.reverse, b.machine)

/-- Puts a batch back that was too small to start with. -/
def abortStart (m : Machine) (place needed : Nat) (batch : List BufferId) :
    Except Refusal Unit × Machine :=
  match forBuffers (fun b m => m.putBack place b) batch m with
  | (.error cause, m) => (.error cause, m)
  | (.ok (), m) =>
    let m := m.modifyRx fun r => r.enter .stopped
    let m := m.give (.rxShort batch.length needed)
    (.error (.insufficientBuffers needed batch.length), m)

/-- Posts a whole batch and switches the receive direction on. -/
def completeStart (m : Machine) (place needed : Nat) (batch : List BufferId) :
    Except Refusal Unit × Machine :=
  let (c, m) := m.readCounter .rxConsumer
  let m := m.modifyRx fun r => r.resync c
  match forBuffers (fun b m => m.postBuffer place b) batch m with
  | (.error cause, m) => (.error cause, m)
  | (.ok (), m) =>
    let m := m.modifyRx fun r => r.enter .running
    let producer := (m.rx.map RxRing.producer).getD 0
    let m := m.writeCounter .rxProducer producer
    let m := m.write .rxDmaControl DmaControl.enable
    (.ok (), m.give (.rxStarted c needed))

/-- Takes back what is left from an earlier run, fills every usable slot, and switches the direction
on. -/
def startRx (m : Machine) : Except Refusal Unit × Machine :=
  match m.rx.map fun r => (r.pool, r.capacity) with
  | none => (.ok (), m)
  | some (place, needed) =>
    let m := (m.write .rxDmaControl DmaControl.off).recyclePosted
    let (batch, m) := m.acquireMany place needed
    if batch.length < needed then m.abortStart place needed batch
    else m.completeStart place needed batch

/-- Switches the receive direction off.  Does nothing to a ring that is cancelled already. -/
def cancelRx (m : Machine) : Machine :=
  if m.rx.any RxRing.isCancelled then m
  else
    let m := m.write .rxDmaControl DmaControl.off
    let m := m.modifyRx fun r => r.enter .cancelled
    let posted := (m.rx.map RxRing.posted).getD 0
    m.give (.rxCancelled posted)

/-! ## Filling up -/

/-- A request under way that also posts buffers. -/
structure Refill where
  /-- Buffers posted. -/
  filled : Nat
  /-- The machine. -/
  machine : Machine

/-- Posts one more free buffer. -/
def refillOne (place : Nat) (r : Refill) : Bool × Refill :=
  match r.machine.acquire place with
  | (none, m) => (false, ⟨r.filled, (m.modifyRx RxRing.noteDeferral).give .rxRefillDeferred⟩)
  | (some b, m) =>
    match m.postBuffer place b with
    | (.ok (), m) => (true, ⟨r.filled + 1, m⟩)
    | (.error _, m) => (false, ⟨r.filled, m⟩)

/-- Posts free buffers until every usable slot has one, or the pool has none. -/
def refill (m : Machine) (place : Nat) : Refill :=
  let empty := (m.rx.map RxRing.unfilled).getD 0
  loop (refillOne place) empty ⟨0, m⟩

/-! ## Taking completions in -/

/-- Drops a completion that is no frame to be shown. -/
def dropCompletion (m : Machine) (place : Nat) (b : BufferId) (c : Completion) : Machine :=
  ((m.give (.rxDropping c)).modifyRx RxRing.noteFramingError).recycleOrReport place b

/-- Delivers the frame in a buffer. -/
def deliverFrame (s : Served) (place : Nat) (b : BufferId) (address : BusAddress) (length : Nat) :
    Served :=
  match s.machine.markDelivered place b with
  | (.error cause, m) => { s with machine := m.give (.rxDeliveryFailed cause) }
  | (.ok h, m) =>
    let pad := (m.rx.map RxRing.pad).getD 0
    let f : Frame :=
      { pool := place, handle := h, address := address, pad := pad, length := length - pad }
    let m := m.modifyRx fun r => r.noteDelivery f.length
    Served.deliver { s with count := s.count + 1, machine := m } f

/-- Takes in one completion of a buffer that has left its slot. -/
def takeCompletion (s : Served) (place : Nat) (b : BufferId) (c : Completion) : Served :=
  let size := ((s.machine.poolAt? place).map BufferPool.bufferSize).getD 0
  if s.machine.rx.any fun r => r.deliverable size c then
    match (s.machine.poolAt? place).bind fun p => p.addressOf? b with
    | some address => deliverFrame s place b address c.length.toNat
    | none => s.onMachine fun m => m.give (.rxOutsidePool b)
  else s.onMachine fun m => m.dropCompletion place b c

/-- Passes the oldest slot and takes in its completion. -/
def takeSlot (s : Served) (place : Nat) : Served :=
  match s.machine.rx.map fun r => (r.headSlot, r.bufferAt? r.headSlot) with
  | none => s
  | some (slot, held) =>
    let s := s.onMachine fun m => m.modifyRx RxRing.pass
    match held with
    | some b =>
      let (c, m) := s.machine.readCompletion slot
      takeCompletion { s with machine := m } place b c
    | none => s.onMachine fun m => m.give (.rxEmptySlot slot)

/-! ## A whole service -/

/-- A service under way, and the buffers that it has posted. -/
structure RxService where
  /-- The request. -/
  served : Served
  /-- Buffers posted. -/
  filled : Nat

namespace RxService

/-- Fills the ring up. -/
def refill (s : RxService) (place : Nat) : RxService :=
  let r := s.served.machine.refill place
  { served := { s.served with machine := r.machine }, filled := s.filled + r.filled }

/-- Takes in one completion and fills the ring up. -/
def round (place : Nat) (s : RxService) : Bool × RxService :=
  (true, { s with served := takeSlot s.served place }.refill place)

end RxService

/-- Reports a reading of the adapter's counter that is not believed. -/
def checkRxReading (m : Machine) (c : Counter) : Machine :=
  match m.rx with
  | none => m
  | some ring =>
    (m.giveIf (!ring.believes c) (.rxBadConsumer c ring.consumer ring.producer)).modifyRx fun r =>
      r.noteReading c

/-- Rings the doorbell if buffers were posted. -/
def ringRx (m : Machine) (filled : Nat) : Machine :=
  if filled = 0 then m
  else
    let producer := (m.rx.map RxRing.producer).getD 0
    m.writeCounter .rxProducer producer

/-- Takes in the completions that the adapter announces, and fills the ring up. -/
def serveRx (m : Machine) (u : Upper) (place : Nat) : Served :=
  let (c, m) := m.readCounter .rxConsumer
  let ready := (m.rx.map fun r => r.ready c).getD 0
  let m := m.checkRxReading c
  let s := (loop (RxService.round place) ready ⟨.start u m, 0⟩).refill place
  s.served.onMachine fun m =>
    (m.ringRx s.filled).giveIf (ready != 0) (.rxServed ready s.served.count s.filled)

/-- Serves the receive ring, and counts the frames delivered. -/
def advanceRx (m : Machine) (u : Upper) : Served :=
  match m.rx with
  | none => .start u m
  | some ring =>
    match ring.phase with
    | .stopped => .start u m
    | .cancelled => .start u m.recyclePosted
    | .running => m.serveRx u ring.pool

end Machine

end DescriptorRings
