import DescriptorRings.Machine.Reception
import DescriptorRings.Proofs.Machine.Sides

/-!
# Reception does not notice transmission

Whatever is done with a receive ring is done on the side of reception: buffers move through the pool
and the slots, frames are read from memory and handed over, and what the upper layer gives back goes
to where it came from.  Even whether a pool may be taken down is decided on this side, since nothing
on the side of transmission refers to a pool.  So two machines that agree on the side of reception
stay in step, and each of them keeps the other side as it was.
-/

namespace DescriptorRings

open List

variable {n n' m m' : Machine}

namespace InStep

/-! ## What both machines have in common -/

theorem rx (h : InStep .rx n n' m m') : m'.rx = m.rx := congrArg (fun s => s.rx) h.own

theorem memory (h : InStep .rx n n' m m') : m'.memory = m.memory :=
  congrArg (fun s => s.memory) h.own

theorem pools (h : InStep .rx n n' m m') : m'.pools = m.pools :=
  congrArg (fun s => s.pools) h.own

theorem frames (h : InStep .rx n n' m m') : m'.frames = m.frames :=
  congrArg (fun s => s.frames) h.own

theorem handles (h : InStep .rx n n' m m') : m'.handles = m.handles :=
  congrArg (fun s => s.handles) h.own

theorem engine (h : InStep .rx n n' m m') : m'.engine = m.engine :=
  congrArg (fun s => s.engine) h.own

theorem poolAt? (h : InStep .rx n n' m m') (place : Nat) : m'.poolAt? place = m.poolAt? place := by
  unfold Machine.poolAt?
  rw [h.pools]

/-- **Nothing on the side of transmission refers to a pool.** -/
theorem refersTo (h : InStep .rx n n' m m') (place : Nat) :
    m'.refersTo place = m.refersTo place := by
  have aside : m'.aside = m.aside := congrArg (fun s => s.aside) h.own
  unfold Scene.refersTo Assembly.refersTo Scene.atWork
  rw [h.pools, h.rx, h.engine, h.frames, aside]

/-! ## Moving buffers -/

theorem modifyPool (h : InStep .rx n n' m m') (place : Nat) (f : BufferPool → BufferPool) :
    InStep .rx n n' (m.modifyPool place f) (m'.modifyPool place f) :=
  h.adjust
    (f := fun s => { s with pools := s.pools.modify place fun e => { e with pool := f e.pool } }) {}

theorem acquire (h : InStep .rx n n' m m') (place : Nat) :
    Matches .rx n n' (m.acquire place) (m'.acquire place) := by
  unfold Machine.acquire
  rw [h.poolAt?]
  exact ⟨rfl, h.modifyPool place BufferPool.acquireNext⟩

theorem alter (h : InStep .rx n n' m m') (place : Nat) (b : BufferId) (start : BufferState)
    (change : BufferPool → BufferPool) :
    Matches .rx n n' (m.alter place b start change) (m'.alter place b start change) := by
  unfold Machine.alter Machine.obstacleAt?
  rw [h.poolAt?]
  split
  · exact ⟨rfl, h.modifyPool place change⟩
  · exact ⟨rfl, h.give _⟩
  · exact ⟨rfl, h⟩

theorem markPosted (h : InStep .rx n n' m m') (place : Nat) (b : BufferId) :
    Matches .rx n n' (m.markPosted place b) (m'.markPosted place b) :=
  h.alter place b .acquired _

theorem recycle (h : InStep .rx n n' m m') (place : Nat) (b : BufferId) :
    Matches .rx n n' (m.recycle place b) (m'.recycle place b) :=
  h.alter place b .posted _

theorem putBack (h : InStep .rx n n' m m') (place : Nat) (b : BufferId) :
    Matches .rx n n' (m.putBack place b) (m'.putBack place b) :=
  h.alter place b .acquired _

theorem markDelivered (h : InStep .rx n n' m m') (place : Nat) (b : BufferId) :
    Matches .rx n n' (m.markDelivered place b) (m'.markDelivered place b) := by
  obtain ⟨answer, k, k', first, second, altered⟩ :=
    (h.alter place b .posted fun p => p.deliver b).split
  unfold Machine.markDelivered
  rw [first, second]
  cases answer with
  | error cause => exact ⟨rfl, altered⟩
  | ok =>
    dsimp only
    rw [altered.poolAt?]
    cases k.poolAt? place with
    | none => exact ⟨rfl, altered⟩
    | some p => exact ⟨rfl, altered⟩

theorem release (h : InStep .rx n n' m m') (place : Nat) (x : ReturnHandle) :
    Matches .rx n n' (m.release place x) (m'.release place x) := by
  unfold Machine.release
  rw [h.poolAt?]
  split
  · exact ⟨rfl, h.modifyPool place fun p => p.move x.buffer .free⟩
  · exact ⟨rfl, h⟩

/-! ## Taking a pool down -/

theorem free (h : InStep .rx n n' m m') (a : BusAddress) :
    InStep .rx n n' (m.free a) (m'.free a) :=
  (h.adjust (f := fun s => { s with memory := s.memory.free a }) {}).record (.freed a)

/-- **A pool is taken down in both machines or in neither.** -/
theorem reapPool (h : InStep .rx n n' m m') (place : Nat) :
    InStep .rx n n' (m.reapPool place) (m'.reapPool place) := by
  unfold Machine.reapPool
  rw [h.pools]
  cases m.pools[place]? with
  | none => exact h
  | some e =>
    dsimp only
    rw [h.refersTo]
    split
    · have freed := (h.giveIf (e.pool.tally.posted != 0)
        (.poolLostPosted e.pool.id e.pool.tally.posted)).foldl (fun a _ _ hk => hk.free a)
        e.pool.addresses
      exact freed.adjust (f := fun s => { s with pools := s.pools.modify place fun e =>
        { e with live := false } }) {}
    · exact h

/-! ## Held frames -/

theorem removeFrame (h : InStep .rx n n' m m') (i : Nat) :
    InStep .rx n n' (m.removeFrame i) (m'.removeFrame i) :=
  h.adjust (f := fun s => { s with frames := s.frames.setIfInBounds i none }) {}

theorem dropFrame (h : InStep .rx n n' m m') (x : Frame) :
    InStep .rx n n' (m.dropFrame x) (m'.dropFrame x) := by
  obtain ⟨answer, k, k', first, second, released⟩ := (h.release x.pool x.handle).split
  unfold Machine.dropFrame
  rw [first, second]
  cases answer with
  | ok => exact released.reapPool x.pool
  | error cause => exact (released.give _).reapPool x.pool

theorem detachFrame (h : InStep .rx n n' m m') (x : Frame) :
    InStep .rx n n' (m.detachFrame x) (m'.detachFrame x) :=
  (h.reapPool x.pool).adjust (f := fun s => { s with handles := s.handles.push x.handle }) {}

/-! ## Posting and taking back -/

theorem postBuffer (h : InStep .rx n n' m m') (place : Nat) (b : BufferId) :
    Matches .rx n n' (m.postBuffer place b) (m'.postBuffer place b) := by
  unfold Machine.postBuffer
  rw [h.poolAt?, h.rx]
  cases (m.poolAt? place).bind fun p => (p.addressOf? b).map fun a => (a, p.bufferSize) with
  | none =>
    obtain ⟨answer, k, k', first, second, back⟩ := (h.putBack place b).split
    dsimp only
    rw [first, second]
    cases answer with
    | ok => exact ⟨rfl, back⟩
    | error cause => exact ⟨rfl, back⟩
  | some room =>
    obtain ⟨answer, k, k', first, second, posted⟩ :=
      ((h.writeRx ((m.rx.map RxRing.tailSlot).getD 0) room.1 (UInt32.ofNat room.2)).markPosted
        place b).split
    dsimp only
    rw [first, second]
    cases answer with
    | ok => exact ⟨rfl, posted.modifyRx fun r => r.post b⟩
    | error cause => exact ⟨rfl, posted⟩

theorem recycleOrReport (h : InStep .rx n n' m m') (place : Nat) (b : BufferId) :
    InStep .rx n n' (m.recycleOrReport place b) (m'.recycleOrReport place b) := by
  obtain ⟨answer, k, k', first, second, back⟩ := (h.recycle place b).split
  unfold Machine.recycleOrReport
  rw [first, second]
  cases answer with
  | ok => exact back
  | error cause => exact back.give _

theorem recyclePosted (h : InStep .rx n n' m m') :
    InStep .rx n n' m.recyclePosted m'.recyclePosted := by
  unfold Machine.recyclePosted
  rw [h.rx]
  cases m.rx with
  | none => exact h
  | some ring =>
    have back := h.foldl (fun b _ _ hk => hk.recycleOrReport ring.pool b) ring.held
    exact (back.modifyRx RxRing.clear).giveIf _ _

theorem forBuffers {act : BufferId → Machine → Except Refusal Unit × Machine}
    (each : ∀ b k k', InStep .rx n n' k k' → Matches .rx n n' (act b k) (act b k'))
    (batch : List BufferId) (h : InStep .rx n n' m m') :
    Matches .rx n n' (Machine.forBuffers act batch m) (Machine.forBuffers act batch m') := by
  induction batch generalizing m m' with
  | nil => exact ⟨rfl, h⟩
  | cons b rest ih =>
    obtain ⟨answer, k, k', first, second, done⟩ := (each b m m' h).split
    unfold Machine.forBuffers
    rw [first, second]
    cases answer with
    | ok => exact ih done
    | error cause => exact ⟨rfl, done⟩

end InStep

/-! ## Starting and cancelling -/

/-- Two batches that are being acquired side by side. -/
structure BatchInStep (n n' : Machine) (b b' : Machine.Batch) : Prop where
  /-- The same buffers have been acquired. -/
  buffers : b'.buffers = b.buffers
  /-- The machines are in step. -/
  machines : InStep .rx n n' b.machine b'.machine

theorem BatchInStep.next (place : Nat) (b b' : Machine.Batch) (h : BatchInStep n n' b b') :
    (b'.next place).1 = (b.next place).1 ∧
      BatchInStep n n' (b.next place).2 (b'.next place).2 := by
  obtain ⟨next, k, k', first, second, acquired⟩ := (h.machines.acquire place).split
  unfold Machine.Batch.next
  rw [first, second]
  cases next with
  | none => exact ⟨rfl, h.buffers, acquired⟩
  | some id => exact ⟨rfl, congrArg (id :: ·) h.buffers, acquired⟩

namespace InStep

/-- **Both acquire the same buffers.** -/
theorem acquireMany (h : InStep .rx n n' m m') (place count : Nat) :
    Matches .rx n n' (m.acquireMany place count) (m'.acquireMany place count) := by
  have begun : BatchInStep n n' ⟨[], m⟩ ⟨[], m'⟩ := ⟨rfl, h⟩
  have acquired := loop_keeps_both (BatchInStep.next place) count begun
  exact ⟨congrArg reverse acquired.buffers, acquired.machines⟩

theorem abortStart (h : InStep .rx n n' m m') (place needed : Nat) (batch : List BufferId) :
    Matches .rx n n' (m.abortStart place needed batch) (m'.abortStart place needed batch) := by
  obtain ⟨answer, k, k', first, second, back⟩ :=
    (h.forBuffers (fun b _ _ hk => hk.putBack place b) batch).split
  unfold Machine.abortStart
  rw [first, second]
  cases answer with
  | error cause => exact ⟨rfl, back⟩
  | ok => exact ⟨rfl, (back.modifyRx fun r => r.enter .stopped).give _⟩

theorem completeStart (h : InStep .rx n n' m m') (place needed : Nat) (batch : List BufferId) :
    Matches .rx n n' (m.completeStart place needed batch)
      (m'.completeStart place needed batch) := by
  obtain ⟨c, k, k', first, second, read⟩ := (h.readCounter (r := .rxConsumer) rfl).split
  unfold Machine.completeStart
  rw [first, second]
  dsimp only
  obtain ⟨answer, q, q', first, second, posted⟩ :=
    ((read.modifyRx fun r => r.resync c).forBuffers (fun b _ _ hk => hk.postBuffer place b)
      batch).split
  rw [first, second]
  cases answer with
  | error cause => exact ⟨rfl, posted⟩
  | ok =>
    have running := posted.modifyRx fun r => r.enter .running
    dsimp only
    rw [running.rx]
    have rung := running.write (r := .rxProducer) rfl
      (((q.modifyRx fun r => r.enter .running).rx.map RxRing.producer).getD 0).toUInt32
    exact ⟨rfl, (rung.write (r := .rxDmaControl) rfl DmaControl.enable).give _⟩

theorem startRx (h : InStep .rx n n' m m') : Matches .rx n n' m.startRx m'.startRx := by
  unfold Machine.startRx
  rw [h.rx]
  cases m.rx with
  | none => exact ⟨rfl, h⟩
  | some ring =>
    have emptied := (h.write (r := .rxDmaControl) rfl DmaControl.off).recyclePosted
    obtain ⟨batch, k, k', first, second, acquired⟩ :=
      (emptied.acquireMany ring.pool ring.capacity).split
    dsimp only [Option.map_some]
    rw [first, second]
    dsimp only
    split
    · exact acquired.abortStart ring.pool ring.capacity batch
    · exact acquired.completeStart ring.pool ring.capacity batch

theorem cancelRx (h : InStep .rx n n' m m') : InStep .rx n n' m.cancelRx m'.cancelRx := by
  unfold Machine.cancelRx
  rw [h.rx]
  split
  · exact h
  · have off := h.write (r := .rxDmaControl) rfl DmaControl.off
    have cancelled := off.modifyRx fun r => r.enter .cancelled
    dsimp only
    rw [cancelled.rx]
    exact cancelled.give _

end InStep

/-! ## Filling up -/

/-- Two refills that work side by side. -/
structure RefillInStep (n n' : Machine) (r r' : Machine.Refill) : Prop where
  /-- They have posted the same number of buffers. -/
  filled : r'.filled = r.filled
  /-- The machines are in step. -/
  machines : InStep .rx n n' r.machine r'.machine

theorem RefillInStep.refillOne (place : Nat) (r r' : Machine.Refill) (h : RefillInStep n n' r r') :
    (Machine.refillOne place r').1 = (Machine.refillOne place r).1 ∧
      RefillInStep n n' (Machine.refillOne place r).2 (Machine.refillOne place r').2 := by
  obtain ⟨next, k, k', first, second, acquired⟩ := (h.machines.acquire place).split
  unfold Machine.refillOne
  rw [first, second]
  cases next with
  | none => exact ⟨rfl, h.filled, (acquired.modifyRx RxRing.noteDeferral).give .rxRefillDeferred⟩
  | some b =>
    obtain ⟨answer, q, q', first, second, posted⟩ := (acquired.postBuffer place b).split
    dsimp only
    rw [first, second]
    cases answer with
    | ok => exact ⟨rfl, congrArg (· + 1) h.filled, posted⟩
    | error cause => exact ⟨rfl, h.filled, posted⟩

theorem InStep.refill (h : InStep .rx n n' m m') (place : Nat) :
    RefillInStep n n' (m.refill place) (m'.refill place) := by
  have begun : RefillInStep n n' ⟨0, m⟩ ⟨0, m'⟩ := ⟨rfl, h⟩
  unfold Machine.refill
  rw [h.rx]
  exact loop_keeps_both (RefillInStep.refillOne place) _ begun

/-! ## Taking completions in -/

namespace InStep

theorem readCompletion (h : InStep .rx n n' m m') (slot : Nat) :
    Matches .rx n n' (m.readCompletion slot) (m'.readCompletion slot) := by
  have table : m'.turn.adapter.rxTable = m.turn.adapter.rxTable :=
    congrArg (fun a => a.rxTable) h.turn.adapter
  have same : m'.turn.adapter.completionAt slot = m.turn.adapter.completionAt slot := by
    unfold Adapter.completionAt
    rw [table]
  unfold Machine.readCompletion
  dsimp only
  rw [same]
  exact ⟨rfl, h.turn.record _⟩

theorem dropCompletion (h : InStep .rx n n' m m') (place : Nat) (b : BufferId) (c : Completion) :
    InStep .rx n n' (m.dropCompletion place b c) (m'.dropCompletion place b c) :=
  ((h.give (.rxDropping c)).modifyRx RxRing.noteFramingError).recycleOrReport place b

theorem checkRxReading (h : InStep .rx n n' m m') (c : Counter) :
    InStep .rx n n' (m.checkRxReading c) (m'.checkRxReading c) := by
  unfold Machine.checkRxReading
  rw [h.rx]
  cases m.rx with
  | none => exact h
  | some ring => exact (h.giveIf _ _).modifyRx _

theorem ringRx (h : InStep .rx n n' m m') (filled : Nat) :
    InStep .rx n n' (m.ringRx filled) (m'.ringRx filled) := by
  unfold Machine.ringRx
  rw [h.rx]
  split
  · exact h
  · exact h.write rfl _

end InStep

namespace ServedInStep

variable {s s' : Served}

theorem dispose (h : ServedInStep .rx n n' s s') (x : Frame) :
    ServedInStep .rx n n' (s.dispose x) (s'.dispose x) := by
  have shown : ServedInStep .rx n n'
      { s with upper := { s.upper with frames := s.upper.frames + 1 } }
      { s' with upper := { s'.upper with frames := s.upper.frames + 1 } } :=
    ⟨h.count, ⟨h.upper.disposal, rfl, h.upper.replies⟩, h.machines⟩
  unfold Served.dispose
  rw [h.upper.disposal, h.upper.frames]
  dsimp only
  cases s.upper.disposal s.upper.frames with
  | drop => exact shown.onMachine fun _ _ hk => hk.dropFrame x
  | hold =>
    exact shown.onMachine fun _ _ hk =>
      hk.adjust (f := fun s => { s with frames := s.frames.push (some x) }) {}
  | detach => exact shown.onMachine fun _ _ hk => hk.detachFrame x

/-- **The same bytes are handed over.** -/
theorem deliver (h : ServedInStep .rx n n' s s') (x : Frame) :
    ServedInStep .rx n n' (s.deliver x) (s'.deliver x) := by
  have shown : ServedInStep .rx n n'
      (s.onMachine fun m => m.record (.delivered x (x.bytes m.memory)))
      (s'.onMachine fun m => m.record (.delivered x (x.bytes m.memory))) := by
    have same : x.bytes s'.machine.memory = x.bytes s.machine.memory := by rw [h.machines.memory]
    have both := h.machines.record (.delivered x (x.bytes s.machine.memory))
    refine h.goOn ?_
    show InStep .rx n n' _ (s'.machine.record (.delivered x (x.bytes s'.machine.memory)))
    rw [same]
    exact both
  exact (shown.dispose x).reply

theorem deliverFrame (h : ServedInStep .rx n n' s s') (place : Nat) (b : BufferId)
    (address : BusAddress) (length : Nat) :
    ServedInStep .rx n n' (Machine.deliverFrame s place b address length)
      (Machine.deliverFrame s' place b address length) := by
  obtain ⟨answer, k, k', first, second, marked⟩ := (h.machines.markDelivered place b).split
  unfold Machine.deliverFrame
  rw [first, second]
  cases answer with
  | error cause => exact h.goOn (marked.give _)
  | ok x =>
    dsimp only
    rw [marked.rx]
    have noted := marked.modifyRx fun r =>
      r.noteDelivery (length - (k.rx.map RxRing.pad).getD 0)
    have counted : ServedInStep .rx n n' ⟨s.count + 1, s.upper, k.modifyRx _⟩
        ⟨s'.count + 1, s'.upper, k'.modifyRx _⟩ := ⟨congrArg (· + 1) h.count, h.upper, noted⟩
    exact counted.deliver _

/-- **A completion is delivered in both machines, or dropped in both.** -/
theorem takeCompletion (h : ServedInStep .rx n n' s s') (place : Nat) (b : BufferId)
    (c : Completion) :
    ServedInStep .rx n n' (Machine.takeCompletion s place b c)
      (Machine.takeCompletion s' place b c) := by
  unfold Machine.takeCompletion
  rw [h.machines.poolAt?, h.machines.rx]
  dsimp only
  split
  · cases (s.machine.poolAt? place).bind fun p => p.addressOf? b with
    | none => exact h.onMachine fun _ _ hk => hk.give _
    | some address => exact h.deliverFrame place b address c.length.toNat
  · exact h.onMachine fun _ _ hk => hk.dropCompletion place b c

theorem takeSlot (h : ServedInStep .rx n n' s s') (place : Nat) :
    ServedInStep .rx n n' (Machine.takeSlot s place) (Machine.takeSlot s' place) := by
  have passed := h.onMachine fun _ _ hk => hk.modifyRx RxRing.pass
  unfold Machine.takeSlot
  rw [h.machines.rx]
  cases s.machine.rx with
  | none => exact h
  | some ring =>
    dsimp only [Option.map_some]
    cases ring.bufferAt? ring.headSlot with
    | none => exact passed.onMachine fun _ _ hk => hk.give _
    | some b =>
      obtain ⟨c, k, k', first, second, read⟩ := (passed.machines.readCompletion ring.headSlot).split
      dsimp only
      rw [first, second]
      exact (passed.goOn read).takeCompletion place b c

end ServedInStep

/-! ## A whole service -/

/-- Two services that work side by side. -/
structure RxServiceInStep (n n' : Machine) (s s' : Machine.RxService) : Prop where
  /-- The requests are in step. -/
  served : ServedInStep .rx n n' s.served s'.served
  /-- They have posted the same number of buffers. -/
  filled : s'.filled = s.filled

namespace RxServiceInStep

variable {s s' : Machine.RxService}

theorem refill (h : RxServiceInStep n n' s s') (place : Nat) :
    RxServiceInStep n n' (s.refill place) (s'.refill place) := by
  have posted := h.served.machines.refill place
  exact ⟨h.served.goOn posted.machines, congrArg₂ (· + ·) h.filled posted.filled⟩

theorem round (place : Nat) (s s' : Machine.RxService) (h : RxServiceInStep n n' s s') :
    (Machine.RxService.round place s').1 = (Machine.RxService.round place s).1 ∧
      RxServiceInStep n n' (Machine.RxService.round place s).2
        (Machine.RxService.round place s').2 := by
  have taken : RxServiceInStep n n' { s with served := Machine.takeSlot s.served place }
      { s' with served := Machine.takeSlot s'.served place } :=
    ⟨h.served.takeSlot place, h.filled⟩
  exact ⟨rfl, taken.refill place⟩

end RxServiceInStep

namespace InStep

/-- **Both find the adapter at the same counter, and take the same completions in.** -/
theorem serveRx (h : InStep .rx n n' m m') {u u' : Upper} (upper : UpperInStep .rx n n' u u')
    (place : Nat) : ServedInStep .rx n n' (m.serveRx u place) (m'.serveRx u' place) := by
  obtain ⟨c, k, k', first, second, read⟩ := (h.readCounter (r := .rxConsumer) rfl).split
  unfold Machine.serveRx
  rw [first, second]
  dsimp only
  rw [read.rx]
  have begun : RxServiceInStep n n' ⟨.start u (k.checkRxReading c), 0⟩
      ⟨.start u' (k'.checkRxReading c), 0⟩ := ⟨.start upper (read.checkRxReading c), rfl⟩
  have served := (loop_keeps_both (RxServiceInStep.round place)
    ((k.rx.map fun r => r.ready c).getD 0) begun).refill place
  rw [served.filled, served.served.count]
  exact served.served.onMachine fun _ _ hk => (hk.ringRx _).giveIf _ _

/-- **Serving the receive ring comes to the same.** -/
theorem advanceRx (h : InStep .rx n n' m m') {u u' : Upper} (upper : UpperInStep .rx n n' u u') :
    ServedInStep .rx n n' (m.advanceRx u) (m'.advanceRx u') := by
  unfold Machine.advanceRx
  rw [h.rx]
  cases m.rx with
  | none => exact .start upper h
  | some ring =>
    dsimp only
    cases ring.phase with
    | stopped => exact .start upper h
    | cancelled => exact .start upper h.recyclePosted
    | running => exact h.serveRx upper ring.pool

end InStep

end DescriptorRings
