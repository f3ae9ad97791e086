import DescriptorRings.Machine.Upper

/-!
# Serving the transmit ring

Serving a running ring is two things in this order.  First the posting walk writes the descriptors
of as many waiting packets as fit, and only then rings the doorbell: the adapter must not see a
counter before the descriptors that it covers.  Then the adapter's counter is read, once, and the
packets that it has consumed are handed back one by one.  The upper layer may submit while it is
called; what it submits stays in the intake until the next service.

A cancelled ring is served by handing back everything, whatever the adapter has done, since its
direction is switched off.
-/

namespace DescriptorRings

namespace Machine

/-! ## Submission -/

/-- Queues a packet for transmission. -/
def submit (m : Machine) (p : Packet) : Except Refusal Unit × Machine :=
  match m.tx.bind fun r => r.refusal? p with
  | some cause => (.error cause, m)
  | none => (.ok (), (m.modifyTx fun r => r.accept p).record (.accepted p))

/-! ## Starting and cancelling -/

/-- Puts the transmit ring where the adapter stands, and switches its direction on.  Refused while
descriptors are in flight. -/
def startTx (m : Machine) : Except Refusal Unit × Machine :=
  if m.tx.any fun r => r.inFlight != 0 then (.error .badState, m)
  else
    let (c, m) := m.readCounter .txConsumer
    let m := m.modifyTx fun r => r.begin c
    let m := m.writeCounter .txProducer c
    let m := m.write .txDmaControl DmaControl.enable
    (.ok (), m.give (.txStarted c))

/-- Switches the transmit direction off and marks the queued packets ignored.  Does nothing to a
ring that is cancelled already. -/
def cancelTx (m : Machine) : Machine :=
  if m.tx.any TxRing.isCancelled then m
  else
    let m := m.write .txDmaControl DmaControl.off
    let m := m.modifyTx TxRing.cancel
    let queued := (m.tx.map fun r => r.queue.length).getD 0
    m.give (.txCancelled queued)

/-! ## Posting -/

/-- Writes the descriptors of one packet. -/
def postPacket (size : RingSize) (m : Machine) (t : TxPost) : Machine :=
  (t.writes size).foldl (fun m w => m.writeTx w.1 w.2) (m.record (.posting t))

/-- Rings the doorbell if descriptors were written. -/
def ringTx (m : Machine) (count : Nat) (producer : Counter) : Machine :=
  if count = 0 then m
  else (m.writeCounter .txProducer producer).give (.txPosted count producer)

/-- Posts as many waiting packets as fit. -/
def postTx (m : Machine) : Machine :=
  match m.tx with
  | none => m
  | some ring =>
    let w := ring.postingWalk
    let m := w.posts.foldl (postPacket ring.size) m
    let m := m.modifyTx fun r => r.afterWalk w
    let m := match w.stopped with
      | some (needed, free) => m.give (.txBackpressure needed free)
      | none => m
    m.ringTx w.written w.producer

/-! ## Completing -/

/-- Hands a packet back that was taken out of the ring. -/
def settleTx (s : Served) (p : Packet) : Served :=
  let s := s.onMachine fun m => m.modifyTx fun r => r.settle p
  { s with count := s.count + 1 }.complete p

/-- Hands back the oldest passed packet, if it is done. -/
def completeDone (unconsumed : Nat) (s : Served) : Bool × Served :=
  match s.machine.tx.bind fun r => r.takeDone? unconsumed with
  | some (p, ring) => (true, settleTx (s.onMachine fun m => { m with tx := some ring }) p)
  | none => (false, s)

/-- Hands back the oldest packet past the intake. -/
def completeOldest (s : Served) : Bool × Served :=
  match s.machine.tx.bind TxRing.takeOldest? with
  | some (p, ring) =>
    let ignored := p.ignore
    (true, settleTx (s.onMachine fun m => { m with tx := some ring }) ignored)
  | none => (false, s)

/-- Reports a reading of the adapter's counter that is not believed. -/
def checkTxReading (m : Machine) (c : Counter) : Machine :=
  match m.tx with
  | none => m
  | some ring =>
    (m.giveIf (!ring.believes c) (.txBadConsumer c ring.reclaim ring.producer)).modifyTx fun r =>
      r.noteReading c

/-- Reads how far the adapter has come, and hands back the packets that are done. -/
def reclaimTx (s : Served) : Served :=
  let (c, m) := s.machine.readCounter .txConsumer
  let unconsumed := (m.tx.map fun r => r.unconsumed c).getD 0
  let passed := (m.tx.map fun r => r.passed.length).getD 0
  let s := loop (completeDone unconsumed) passed { s with machine := m.checkTxReading c }
  s.onMachine fun m => m.giveIf (s.count != 0) (.txReclaimed s.count)

/-- Hands back every packet past the intake, and forgets the descriptors in flight. -/
def drainTx (s : Served) : Served :=
  let queued := (s.machine.tx.map fun r => r.queue.length).getD 0
  (loop completeOldest queued s).onMachine fun m => m.modifyTx TxRing.abandon

/-- Serves the transmit ring, and counts the packets handed back. -/
def advanceTx (m : Machine) (u : Upper) : Served :=
  match m.tx with
  | none => .start u m
  | some ring =>
    match ring.phase with
    | .stopped => .start u m
    | .cancelled => drainTx (.start u (m.modifyTx TxRing.collect))
    | .running => reclaimTx (.start u (m.modifyTx TxRing.collect).postTx)

end Machine

end DescriptorRings
