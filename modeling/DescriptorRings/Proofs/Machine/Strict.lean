import DescriptorRings.Machine.Engine
import DescriptorRings.MachineWord

/-!
# The strict machine

The machine goes on whatever happens to it.  A difference of naturals that would lie below zero is
zero, an array that is read past its end yields a default, and when the pool refuses something that a
ring relies on, the ring gives a notice of it and does the next thing.  Nothing of this is meant to
happen.  A program that checked itself would stop there.

The *strict machine* does so.  It works as the machine does, and stops with a *mishap* as soon as

* a difference would lie below zero (`sub`);
* an index reaches past the end of a table, be it of the slots of a ring or of the buffers of a pool
  (`index`);
* the pool refuses an operation of its ring, or a frame that is dropped (`demand`);
* a notice of the gravest level is due.

The operations of the strict machine have the names of those of the machine, and what they do between
two checks they leave to the machine.  A reply of the upper layer is any change of the machine at all,
so the strict machine takes it as it is.
-/

namespace DescriptorRings

/-- What the strict machine stops at. -/
inductive Mishap where
  /-- A word would leave its range. -/
  | fault (f : Fault)
  /-- An index reaches past the end. -/
  | outside (index size : Nat)
  /-- The pool refuses what was relied on. -/
  | refused (cause : Refusal)
  /-- A notice of the gravest level is due. -/
  | alarm (n : Notice)

namespace Strict

open Machine

/-! ## Checks -/

section Checks

variable {α : Type}

/-- A difference. -/
def sub (a b : Nat) : Except Mishap Nat := (Checked.sub a b).mapError .fault

/-- An index into a table of the given size. -/
def index (i size : Nat) : Except Mishap Unit := if i < size then .ok () else .error (.outside i size)

/-- An operation that must not be refused. -/
def demand : Except Refusal α × Machine → Except Mishap (α × Machine)
  | (.ok a, m) => .ok (a, m)
  | (.error cause, _) => .error (.refused cause)

/-- Runs rounds until one does not ask for another, but no more than `n`. -/
def loop (round : α → Except Mishap (Bool × α)) : Nat → α → Except Mishap α
  | 0, a => .ok a
  | n + 1, a => do
    match ← round a with
    | (true, b) => loop round n b
    | (false, b) => return b

end Checks

/-! ## Checks that are passed -/

section Passed

variable {α β : Type} {a b i n size : Nat}

/-- After a check that is passed the machine goes on. -/
theorem bind_eq {x : Except Mishap α} {y : α} (passed : x = .ok y) (f : α → Except Mishap β) :
    (x >>= f) = f y := by
  rw [passed]
  rfl

theorem sub_eq (h : b ≤ a) : sub a b = .ok (a - b) := by
  rw [sub, Checked.sub_eq_ok_iff.mpr ⟨h, rfl⟩]
  rfl

theorem index_eq (h : i < size) : index i size = .ok () := if_pos h

/-- A ring has at least two slots. -/
theorem capacity_eq (size : RingSize) : sub size.slots 1 = .ok size.capacity :=
  sub_eq (Nat.le_of_succ_le size.two_le)

/-- A distance on a ring is at most its capacity. -/
theorem sub_distance_eq (size : RingSize) (a b : Counter) :
    sub size.capacity (a.distance b size.slots) =
      .ok (size.capacity - a.distance b size.slots) := by
  refine sub_eq (Nat.le_pred_of_lt (a.distance_lt b ?_))
  exact Nat.lt_of_lt_of_le Nat.two_pos size.two_le

theorem forM_eq {check : α → Except Mishap Unit} {as : List α}
    (passed : ∀ a ∈ as, check a = .ok ()) : as.forM check = .ok () := by
  induction as with
  | nil => rfl
  | cons a as ih =>
    refine (bind_eq (passed a List.mem_cons_self) _).trans (ih fun a' h => ?_)
    exact passed a' (List.mem_cons_of_mem a h)

/-- **A loop passes its checks if each round does.**  What holds before a round may count the rounds
that are left. -/
theorem loop_eq {round : α → Bool × α} {strict : α → Except Mishap (Bool × α)} (P : Nat → α → Prop)
    (each : ∀ n x, P (n + 1) x →
      strict x = .ok (round x) ∧ ((round x).1 = true → P n (round x).2))
    {x : α} (start : P n x) : loop strict n x = .ok (DescriptorRings.loop round n x) := by
  induction n generalizing x with
  | zero => rfl
  | succ n ih =>
    obtain ⟨passed, next⟩ := each n x start
    rw [loop, bind_eq passed]
    cases again : (round x).1 with
    | true =>
      have more : round x = (true, (round x).2) := Prod.ext again rfl
      rw [loop_of_again again, more]
      exact ih (next again)
    | false =>
      have done : round x = (false, (round x).2) := Prod.ext again rfl
      rw [loop_of_stop again, done]
      rfl

/-- Buffers of which none is refused pass the checks. -/
theorem foldlM_demand {act : BufferId → Machine → Except Refusal Unit × Machine}
    {batch : List BufferId} {m m' : Machine} (done : forBuffers act batch m = (.ok (), m')) :
    batch.foldlM (fun m b => (demand (act b m)).map Prod.snd) m = .ok m' := by
  induction batch generalizing m with
  | nil => exact congrArg Except.ok (Prod.mk.inj done).2
  | cons b batch ih =>
    rw [forBuffers] at done
    rw [List.foldlM_cons]
    split at done
    · next k first =>
      rw [first]
      exact ih done
    · exact nomatch congrArg Prod.fst done

end Passed

/-! ## The transmit ring -/

/-- Descriptors that can be posted. -/
def freeSlots (r : TxRing) : Except Mishap Nat := do
  sub (← sub r.size.slots 1) r.inFlight

/-- Packets submitted and not reached by the posting walk: those past the intake without those that it
has passed, and the intake.  With two lists the difference cannot go below zero; that it does not with an
index into one deque is shown in `Proofs/Transmit/Deque`. -/
def pending (r : TxRing) : Except Mishap Nat := do
  return (← sub r.queue.length r.passed.length) + r.intake.size

/-- Posts waiting packets from a counter on, until one does not fit. -/
def walk (size : RingSize) (reclaim : Counter) :
    List Packet → Counter → Except Mishap TxRing.Walk
  | [], producer => .ok (.done producer)
  | p :: rest, producer =>
    if p.ignored then (walk size reclaim rest producer).map (.skipping p)
    else do
      let needed := p.fragmentCount
      let free ← sub (← sub size.slots 1) (producer.distance reclaim size.slots)
      if free < needed then return .halted (p :: rest) producer needed free
      else (walk size reclaim rest (producer.advance needed)).map (.posting ⟨p, producer⟩)

/-- Posts as many waiting packets as fit, each descriptor in a slot of the ring. -/
def postTx (m : Machine) : Except Mishap Machine :=
  match m.tx with
  | none => .ok m
  | some ring => do
    let w ← walk ring.size ring.reclaim ring.waiting ring.producer
    w.posts.forM fun t => (t.writes ring.size).forM fun w => index w.1 ring.size.slots
    return m.postTx

/-- Hands a packet back that was taken out of the ring: it was outstanding until now. -/
def settleTx (s : Served) (p : Packet) : Except Mishap Served := do
  let _ ← sub ((s.machine.tx.map TxRing.outstanding).getD 0) 1
  return Machine.settleTx s p

/-- Hands back the oldest passed packet, if it is done: there is one passed packet less. -/
def completeDone (unconsumed : Nat) (s : Served) : Except Mishap (Bool × Served) :=
  match s.machine.tx.bind fun r => r.takeDone? unconsumed with
  | some (p, ring) => do
    let _ ← sub ((s.machine.tx.map fun r => r.passed.length).getD 0) 1
    return (true, ← settleTx (s.onMachine fun m => { m with tx := some ring }) p)
  | none => .ok (false, s)

/-- Hands back the oldest packet past the intake. -/
def completeOldest (s : Served) : Except Mishap (Bool × Served) :=
  match s.machine.tx.bind TxRing.takeOldest? with
  | some (p, ring) => do
    return (true, ← settleTx (s.onMachine fun m => { m with tx := some ring }) p.ignore)
  | none => .ok (false, s)

/-- Reads how far the adapter has come, and hands back the packets that are done. -/
def reclaimTx (s : Served) : Except Mishap Served := do
  let (c, m) := s.machine.readCounter .txConsumer
  let unconsumed := (m.tx.map fun r => r.unconsumed c).getD 0
  let passed := (m.tx.map fun r => r.passed.length).getD 0
  let s ← loop (completeDone unconsumed) passed { s with machine := m.checkTxReading c }
  return s.onMachine fun m => m.giveIf (s.count != 0) (.txReclaimed s.count)

/-- Hands back every packet past the intake, and forgets the descriptors in flight. -/
def drainTx (s : Served) : Except Mishap Served := do
  let queued := (s.machine.tx.map fun r => r.queue.length).getD 0
  let s ← loop completeOldest queued s
  return s.onMachine fun m => m.modifyTx TxRing.abandon

/-- Serves the transmit ring. -/
def advanceTx (m : Machine) (u : Upper) : Except Mishap Served :=
  match m.tx with
  | none => .ok (.start u m)
  | some ring =>
    match ring.phase with
    | .stopped => .ok (.start u m)
    | .cancelled => drainTx (.start u (m.modifyTx TxRing.collect))
    | .running => do reclaimTx (.start u (← postTx (m.modifyTx TxRing.collect)))

/-! ## Buffers -/

/-- How many buffers the pool at a place has. -/
def buffersAt (m : Machine) (place : Nat) : Nat :=
  ((m.poolAt? place).map BufferPool.capacity).getD 0

/-- How many slots the receive ring has. -/
def slotsOf (m : Machine) : Nat := (m.rx.map fun r => r.slots.size).getD 0

/-- Takes the next free buffer of a pool, which must be one of its buffers. -/
def acquire (m : Machine) (place : Nat) : Except Mishap (Option BufferId × Machine) := do
  (m.acquire place).1.forM fun b => index b.index (buffersAt m place)
  return m.acquire place

/-- Takes back an acquired buffer. -/
def putBack (place : Nat) (m : Machine) (b : BufferId) : Except Mishap Machine :=
  (demand (m.putBack place b)).map Prod.snd

/-- Takes back a posted buffer. -/
def recycle (place : Nat) (m : Machine) (b : BufferId) : Except Mishap Machine :=
  (demand (m.recycle place b)).map Prod.snd

/-- Writes an acquired buffer into the next slot. -/
def postBuffer (place : Nat) (m : Machine) (b : BufferId) : Except Mishap Machine := do
  index ((m.rx.map RxRing.tailSlot).getD 0) (slotsOf m)
  (demand (m.postBuffer place b)).map Prod.snd

/-- Releases the buffer of a frame that is in nobody's hands. -/
def dropFrame (m : Machine) (f : Frame) : Except Mishap Machine := do
  let (_, m) ← demand (m.release f.pool f.handle)
  return m.reapPool f.pool

/-! ## Starting the receive ring -/

/-- Takes back all posted buffers, in the order of their slots. -/
def recyclePosted (m : Machine) : Except Mishap Machine :=
  match m.rx.map fun r => (r.pool, r.held) with
  | none => .ok m
  | some (place, held) => do
    let m ← held.foldlM (recycle place) m
    return (m.modifyRx RxRing.clear).giveIf (!held.isEmpty) (.rxRecycled held.length)

/-- Acquires one more buffer. -/
def nextOfBatch (place : Nat) (b : Batch) : Except Mishap (Bool × Batch) := do
  match ← acquire b.machine place with
  | (some id, m) => return (true, ⟨id :: b.buffers, m⟩)
  | (none, m) => return (false, ⟨b.buffers, m⟩)

/-- Acquires up to `count` buffers, and answers with them in order. -/
def acquireMany (m : Machine) (place count : Nat) : Except Mishap (List BufferId × Machine) := do
  let b ← loop (nextOfBatch place) count ⟨[], m⟩
  return (b.buffers.reverse, b.machine)

/-- Puts a batch back that was too small to start with. -/
def abortStart (m : Machine) (place needed : Nat) (batch : List BufferId) :
    Except Mishap (Except Refusal Unit × Machine) := do
  let m ← batch.foldlM (putBack place) m
  let m := m.modifyRx fun r => r.enter .stopped
  return (.error (.insufficientBuffers needed batch.length), m.give (.rxShort batch.length needed))

/-- Posts a whole batch and switches the receive direction on. -/
def completeStart (m : Machine) (place needed : Nat) (batch : List BufferId) :
    Except Mishap (Except Refusal Unit × Machine) := do
  let (c, m) := m.readCounter .rxConsumer
  let m ← batch.foldlM (postBuffer place) (m.modifyRx fun r => r.resync c)
  let m := m.modifyRx fun r => r.enter .running
  let producer := (m.rx.map RxRing.producer).getD 0
  let m := (m.writeCounter .rxProducer producer).write .rxDmaControl DmaControl.enable
  return (.ok (), m.give (.rxStarted c needed))

/-- Takes back what is left from an earlier run, fills every usable slot, and switches the direction
on. -/
def startRx (m : Machine) : Except Mishap (Except Refusal Unit × Machine) :=
  match m.rx with
  | none => .ok (.ok (), m)
  | some r => do
    let needed ← sub r.size.slots 1
    let m ← recyclePosted (m.write .rxDmaControl DmaControl.off)
    let (batch, m) ← acquireMany m r.pool needed
    if batch.length < needed then abortStart m r.pool needed batch
    else completeStart m r.pool needed batch

/-! ## Serving the receive ring -/

/-- Usable slots without a buffer. -/
def unfilled (r : RxRing) : Except Mishap Nat := do
  sub (← sub r.size.slots 1) r.posted

/-- Posts one more free buffer. -/
def refillOne (place : Nat) (f : Refill) : Except Mishap (Bool × Refill) := do
  match ← acquire f.machine place with
  | (none, m) =>
    return (false, ⟨f.filled, (m.modifyRx RxRing.noteDeferral).give .rxRefillDeferred⟩)
  | (some b, m) => return (true, ⟨f.filled + 1, ← postBuffer place m b⟩)

/-- Posts free buffers until every usable slot has one, or the pool has none. -/
def refill (m : Machine) (place : Nat) : Except Mishap Refill :=
  match m.rx with
  | none => .ok ⟨0, m⟩
  | some r => do loop (refillOne place) (← unfilled r) ⟨0, m⟩

/-- Drops a completion that is no frame to be shown. -/
def dropCompletion (m : Machine) (place : Nat) (b : BufferId) (c : Completion) :
    Except Mishap Machine :=
  recycle place ((m.give (.rxDropping c)).modifyRx RxRing.noteFramingError) b

/-- What becomes of a frame.  If it is dropped, its buffer can be released. -/
def dispose (s : Served) (f : Frame) : Except Mishap Served := do
  if s.upper.disposal s.upper.frames = .drop then
    let _ ← dropFrame s.machine f
  return s.dispose f

/-- Delivers the frame in a buffer, whose generation is looked up. -/
def deliverFrame (s : Served) (place : Nat) (b : BufferId) (address : BusAddress) (length : Nat) :
    Except Mishap Served := do
  index b.index (buffersAt s.machine place)
  let (h, m) ← demand (s.machine.markDelivered place b)
  let pad := (m.rx.map RxRing.pad).getD 0
  let shown ← sub length pad
  let f : Frame := { pool := place, handle := h, address := address, pad := pad, length := shown }
  let m := (m.modifyRx fun r => r.noteDelivery shown).record (.delivered f (f.bytes m.memory))
  let s ← dispose { s with count := s.count + 1, machine := m } f
  return s.reply

/-- Takes in one completion of a buffer that has left its slot. -/
def takeCompletion (s : Served) (place : Nat) (b : BufferId) (c : Completion) :
    Except Mishap Served :=
  let size := ((s.machine.poolAt? place).map BufferPool.bufferSize).getD 0
  if s.machine.rx.any fun r => r.deliverable size c then
    match (s.machine.poolAt? place).bind fun p => p.addressOf? b with
    | some address => deliverFrame s place b address c.length.toNat
    | none => .error (.alarm (.rxOutsidePool b))
  else do
    return { s with machine := ← dropCompletion s.machine place b c }

/-- Passes the oldest slot and takes in its completion. -/
def takeSlot (s : Served) (place : Nat) : Except Mishap Served :=
  match s.machine.rx.map fun r => (r.headSlot, r.bufferAt? r.headSlot) with
  | none => .ok s
  | some (slot, held) => do
    index slot (slotsOf s.machine)
    let s := s.onMachine fun m => m.modifyRx RxRing.pass
    match held with
    | some b =>
      let (c, m) := s.machine.readCompletion slot
      takeCompletion { s with machine := m } place b c
    | none => throw (.alarm (.rxEmptySlot slot))

/-- Fills the ring up in the course of a service. -/
def refillService (s : RxService) (place : Nat) : Except Mishap RxService := do
  let r ← refill s.served.machine place
  return { served := { s.served with machine := r.machine }, filled := s.filled + r.filled }

/-- Takes in one completion and fills the ring up. -/
def round (place : Nat) (s : RxService) : Except Mishap (Bool × RxService) := do
  return (true, ← refillService { s with served := ← takeSlot s.served place } place)

/-- Takes in the completions that the adapter announces, and fills the ring up. -/
def serveRx (m : Machine) (u : Upper) (place : Nat) : Except Mishap Served := do
  let (c, m) := m.readCounter .rxConsumer
  let ready := (m.rx.map fun r => r.ready c).getD 0
  let s ← loop (round place) ready ⟨.start u (m.checkRxReading c), 0⟩
  let s ← refillService s place
  return s.served.onMachine fun m =>
    (m.ringRx s.filled).giveIf (ready != 0) (.rxServed ready s.served.count s.filled)

/-- Serves the receive ring. -/
def advanceRx (m : Machine) (u : Upper) : Except Mishap Served :=
  match m.rx with
  | none => .ok (.start u m)
  | some ring =>
    match ring.phase with
    | .stopped => .ok (.start u m)
    | .cancelled => return .start u (← recyclePosted m)
    | .running => serveRx m u ring.pool

/-! ## The engine -/

/-- Starts both rings, or neither. -/
def startEngine (m : Machine) : Except Mishap (Except Refusal Unit × Machine) :=
  match m.startTx with
  | (.error cause, m) => .ok (.error cause, m)
  | (.ok (), m) => do
    match ← startRx m with
    | (.error cause, m) => return (.error cause, m.cancelTx)
    | (.ok (), m) => return (.ok (), m)

/-- Disarms both directions, cancels both rings, and serves each once more. -/
def stopEngine (m : Machine) (u : Upper) : Except Mishap Served := do
  let m := (m.setArmed .tx false).setArmed .rx false
  let s ← advanceTx m.cancelTx.cancelRx u
  let ignored := s.count
  let s ← advanceRx s.machine s.upper
  return s.onMachine fun m => m.give (.engineStopped ignored)

/-- Serves the ring of a direction if its cause is among those pending. -/
def serveIfPending (pending cause : UInt32) (advance : Machine → Upper → Except Mishap Served)
    (s : Served) : Except Mishap Served :=
  if hasBits pending cause then advance s.machine s.upper else .ok s

/-- Serves an interrupt. -/
def interrupt (m : Machine) (u : Upper) : Except Mishap Served :=
  let pending := IrqMask.table.restrict (m.read .irqStatus).1
  if pending = 0 then .ok (.start u (m.read .irqStatus).2)
  else do
    let (fired, s) := (m.read .irqStatus).2.signal u pending
    let s := s.onMachine fun m => m.give (.engineInterrupt pending (Direction.masks fired))
    let s ← serveIfPending pending IrqMask.txDone advanceTx s
    serveIfPending pending IrqMask.rxDone advanceRx s

/-- Drops an engine: everything is switched off, posted buffers go back to the pool, and then the
parts go. -/
def dropEngine (m : Machine) : Except Mishap Machine := do
  let m := (m.write .irqEnable 0).cancelTx.cancelRx
  let s ← advanceRx m .silent
  let m := s.machine
  let outstanding := (m.tx.map TxRing.outstanding).getD 0
  return (m.giveIf (outstanding != 0) (.engineLostPackets outstanding)).dropRings

end Strict

end DescriptorRings
