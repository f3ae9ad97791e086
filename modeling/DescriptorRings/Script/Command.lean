import DescriptorRings.Machine.Engine

/-!
# Commands

A command is a request to the machine in which the upper layer is not called back.  Each is about
one part.  A part that is not there makes the answer `absent`, and the machine stays as it was.

Rings and arbiter are spoken of without saying whose they are: with an engine they are the engine's.
A pool is spoken of by its place, and only as long as its maker still refers to it; a handle can be
given back through the engine as well, whose pool is then meant.
-/

namespace DescriptorRings

/-- A request without callbacks. -/
inductive Command where
  /-- Start the engine. -/
  | start
  /-- Look at the engine. -/
  | inspectEngine
  /-- Drop the engine. -/
  | dropEngine
  /-- Queue a packet. -/
  | submit (p : Packet)
  /-- Start the transmit ring. -/
  | startTx
  /-- Cancel the transmit ring. -/
  | cancelTx
  /-- Count the packets that are not completed. -/
  | outstanding
  /-- Start the receive ring. -/
  | startRx
  /-- Cancel the receive ring. -/
  | cancelRx
  /-- Look at a held frame. -/
  | readFrame (i : Nat)
  /-- Drop a held frame. -/
  | dropFrame (i : Nat)
  /-- Detach the handle of a held frame. -/
  | detachFrame (i : Nat)
  /-- Give back the buffer of a kept handle. -/
  | release (i : Nat) (place : Option Nat)
  /-- Give back the buffer of a handle that arrives as a word. -/
  | releaseRaw (w : UInt64) (place : Option Nat)
  /-- Make a pool. -/
  | createPool (count size align : Nat)
  /-- Drop the reference to a pool. -/
  | dropPool (place : Nat)
  /-- Acquire a buffer. -/
  | acquire (place : Nat)
  /-- Mark a buffer posted. -/
  | markPosted (place : Nat) (b : BufferId)
  /-- Take a posted buffer back. -/
  | recycle (place : Nat) (b : BufferId)
  /-- Take an acquired buffer back. -/
  | putBack (place : Nat) (b : BufferId)
  /-- Mark a buffer delivered, and keep its handle. -/
  | markDelivered (place : Nat) (b : BufferId)
  /-- Look at the state of a buffer. -/
  | stateOf (place : Nat) (b : BufferId)
  /-- Look at the address of a buffer. -/
  | addressOf (place : Nat) (b : BufferId)
  /-- Look at a pool. -/
  | inspectPool (place : Nat)
  /-- Arm or disarm a direction. -/
  | arm (d : Direction) (on : Bool)
  /-- Look at a transmit descriptor. -/
  | readTxSlot (slot : Nat)
  /-- The adapter makes a move. -/
  | move (mv : Move)

namespace Machine

/-! ## Parts that may be missing -/

/-- The pool at a place, as long as its maker refers to it. -/
def listedPool? (m : Machine) (place : Nat) : Option BufferPool :=
  match m.pools[place]? with
  | some e => if e.listed then some e.pool else none
  | none => none

/-- Carries a request out if the part that it is about is there. -/
def provided (m : Machine) (there : Bool) (act : Machine → Outcome × Machine) : Outcome × Machine :=
  if there then act m else (.absent, m)

/-- Carries out a request to a pool. -/
def onPool (m : Machine) (place : Nat) (act : Machine → Outcome × Machine) : Outcome × Machine :=
  m.provided (m.listedPool? place).isSome act

/-- Carries out a request that is either done or refused. -/
def attempt (act : Machine → Except Refusal Unit × Machine) (m : Machine) : Outcome × Machine :=
  let (result, m) := act m
  (.ofResult result, m)

/-- Carries out a request that is always done. -/
def perform (act : Machine → Machine) (m : Machine) : Outcome × Machine := (.done, act m)

/-- Answers a question. -/
def ask (question : Machine → Outcome) (m : Machine) : Outcome × Machine := (question m, m)

/-! ## Answers of several parts -/

/-- The engine, looked at. -/
def engineView? (m : Machine) : Option EngineView :=
  match m.engine, m.tx, m.rx with
  | some e, some tx, some rx =>
    some
      { config := e.config
        tx := (tx.size.slots, tx.capacity)
        rx := (rx.size.slots, rx.capacity)
        buffers := ((m.poolAt? rx.pool).map BufferPool.capacity).getD 0 }
  | _, _, _ => none

/-- A held frame, looked at. -/
def frameView? (m : Machine) (i : Nat) : Option FrameView :=
  (m.frameAt? i).map fun f => { bytes := f.bytes m.memory, frame := f }

/-- Where a handle goes: to the place that is named, or to the engine's pool, or to the first. -/
def releasePlace? (m : Machine) (place : Option Nat) : Option Nat :=
  match place, m.engine with
  | none, some e => some e.pool
  | place, _ =>
    let place := place.getD 0
    if (m.listedPool? place).isSome then some place else none

/-- Gives back the buffer of a handle. -/
def giveBack (m : Machine) (place : Option Nat) (h : ReturnHandle) : Outcome × Machine :=
  match m.releasePlace? place with
  | some place => m.attempt fun m => m.release place h
  | none => (.absent, m)

/-- Takes a frame out of those held, and does something with it. -/
def withFrame (m : Machine) (i : Nat) (act : Machine → Frame → Outcome × Machine) :
    Outcome × Machine :=
  match m.frameAt? i with
  | some f => act (m.removeFrame i) f
  | none => (.absent, m)

/-- Marks a buffer delivered, and keeps its handle. -/
def keepDelivered (m : Machine) (place : Nat) (b : BufferId) : Outcome × Machine :=
  match m.markDelivered place b with
  | (.ok h, m) => (.handle h, { m with handles := m.handles.push h })
  | (.error cause, m) => (.refused cause, m)

/-- Makes a pool. -/
def tryCreatePool (m : Machine) (count size align : Nat) : Outcome × Machine :=
  match m.createPool count size align with
  | (.ok _, m) => (.done, m)
  | (.error cause, m) => (.refused cause, m)

/-- Acquires a buffer. -/
def tryAcquire (m : Machine) (place : Nat) : Outcome × Machine :=
  let (next, m) := m.acquire place
  (.ofCount? (next.map BufferId.index), m)

/-- Something about a buffer that its pool may not have. -/
def askBuffer {α : Type} (place : Nat) (look : BufferPool → Option α) (shown : α → Outcome)
    (m : Machine) : Outcome :=
  match (m.poolAt? place).bind look with
  | some a => shown a
  | none => .nothing

/-! ## Carrying a command out -/

/-- Carries out a command. -/
def obey (m : Machine) : Command → Outcome × Machine
  | .start => m.provided m.engine.isSome (attempt startEngine)
  | .inspectEngine =>
    match m.engineView? with
    | some v => (.engine v, m)
    | none => (.absent, m)
  | .dropEngine => m.provided m.engine.isSome (perform dropEngine)
  | .submit p => m.provided m.tx.isSome (attempt fun m => m.submit p)
  | .startTx => m.provided m.tx.isSome (attempt startTx)
  | .cancelTx => m.provided m.tx.isSome (perform cancelTx)
  | .outstanding =>
    match m.tx with
    | some ring => (.count ring.outstanding, m)
    | none => (.absent, m)
  | .startRx => m.provided m.rx.isSome (attempt startRx)
  | .cancelRx => m.provided m.rx.isSome (perform cancelRx)
  | .readFrame i =>
    match m.frameView? i with
    | some v => (.frame v, m)
    | none => (.absent, m)
  | .dropFrame i => m.withFrame i fun m f => (.done, m.dropFrame f)
  | .detachFrame i => m.withFrame i fun m f => (.raw f.handle, m.detachFrame f)
  | .release i place =>
    match m.handles[i]? with
    | some h => m.giveBack place h
    | none => (.absent, m)
  | .releaseRaw w place => m.giveBack place (.ofRaw w)
  | .createPool count size align => m.tryCreatePool count size align
  | .dropPool place => m.onPool place (perform fun m => m.dropPool place)
  | .acquire place => m.onPool place fun m => m.tryAcquire place
  | .markPosted place b => m.onPool place (attempt fun m => m.markPosted place b)
  | .recycle place b => m.onPool place (attempt fun m => m.recycle place b)
  | .putBack place b => m.onPool place (attempt fun m => m.putBack place b)
  | .markDelivered place b => m.onPool place fun m => m.keepDelivered place b
  | .stateOf place b => m.onPool place (ask (askBuffer place (fun p => p.stateOf? b) .state))
  | .addressOf place b =>
    m.onPool place (ask (askBuffer place (fun p => p.addressOf? b) fun a => .count a.toNat))
  | .inspectPool place => m.onPool place (ask (askBuffer place some .pool))
  | .arm d on => m.provided m.arbiter.isSome (perform fun m => m.setArmed d on)
  | .readTxSlot slot =>
    match m.adapter.txTable.get? slot with
    | some d => (.descriptor d, m)
    | none => (.nothing, m)
  | .move mv => (m.moveOutcome mv, m.move mv)

end Machine

end DescriptorRings
