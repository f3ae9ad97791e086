import DescriptorRings.Loop
import DescriptorRings.Machine.Basic

/-!
# Pools of the machine

Making a pool, moving its buffers, and taking it down.

A pool lives as long as anybody refers to it: whoever made it, an engine, a receive ring, or a held
frame.  References are not counted but looked up, so there is no count that could go wrong.  When
one goes, `reapPool` asks whether any is left, and if not gives the blocks back in the order of
their buffers.  A detached handle is no reference; it keeps its buffer out of the pool, not the pool
alive.
-/

namespace DescriptorRings

/-! ## References -/

/-- Whether something over an adapter refers to the pool at a place. -/
def Assembly.refersTo (a : Assembly) (place : Nat) : Bool :=
  a.engine.any (fun e => e.pool == place) || a.rx.any fun r => r.pool == place

namespace Scene

/-- What stands over the adapter that is at work. -/
def atWork (s : Scene) : Assembly :=
  { adapter := s.adapter, tx := s.tx, rx := s.rx, arbiter := s.arbiter, engine := s.engine }

/-- Whether anybody refers to the pool at a place. -/
def refersTo (s : Scene) (place : Nat) : Bool :=
  s.pools[place]?.any PoolEntry.listed || s.atWork.refersTo place
    || s.aside.any (fun a => a.refersTo place)
    || s.frames.any fun f => f.any fun f => f.pool == place

end Scene

namespace Machine

/-! ## Making a pool -/

/-- A series of allocations under way. -/
structure Grant where
  /-- The addresses granted so far, the latest first. -/
  granted : List BusAddress
  /-- The machine after them. -/
  machine : Machine

namespace Grant

/-- Asks for one more block. -/
def next (layout : Layout) (g : Grant) : Bool × Grant :=
  match g.machine.allocate layout with
  | (some address, m) => (true, ⟨address :: g.granted, m⟩)
  | (none, m) => (false, ⟨g.granted, m⟩)

end Grant

/-- Asks for `count` blocks, and stops at the first that is not granted. -/
def allocateMany (m : Machine) (layout : Layout) (count : Nat) : List BusAddress × Machine :=
  let g := loop (Grant.next layout) count ⟨[], m⟩
  (g.granted.reverse, g.machine)

/-- Gives blocks back, in order. -/
def freeAll (m : Machine) (addresses : List BusAddress) : Machine := addresses.foldl free m

/-- Makes a pool, and answers with its place.  Either all buffers are granted, or those that were
are given back. -/
def createPool (m : Machine) (count size align : Nat) : Except Refusal Nat × Machine :=
  if count = 0 ∨ Config.maxBuffers < count then (.error Config.Flaw.bufferCount.refusal, m)
  else
    match Layout.ofSizes? size align with
    | none => (.error Config.Flaw.bufferLayout.refusal, m)
    | some layout =>
      let (granted, m) := m.allocateMany layout count
      if granted.length < count then
        let m := m.give (.allocationFailed granted.length count)
        (.error .outOfMemory, m.freeAll granted)
      else
        let place := m.pools.size
        let id := UInt16.ofNat (place + 1)
        let m := m.give (.poolCreated id count size)
        let pool := BufferPool.ofAddresses id layout granted
        (.ok place, { m with pools := m.pools.push { pool := pool } })

/-! ## Moving buffers -/

/-- Takes the next free buffer of a pool. -/
def acquire (m : Machine) (place : Nat) : Option BufferId × Machine :=
  let next := (m.poolAt? place).bind fun p => p.free.head?
  (next, m.modifyPool place BufferPool.acquireNext)

/-- What keeps a buffer of a pool from an edge that starts at `start`.  A pool that is not there has
no such buffer. -/
def obstacleAt? (m : Machine) (place : Nat) (b : BufferId) (start : BufferState) :
    Option BufferPool.Obstacle :=
  match m.poolAt? place with
  | some p => p.obstacle? b start
  | none => some .unknown

/-- Changes a pool if a buffer of it is in the state that the change starts from.  A buffer found in
another state is reported. -/
def alter (m : Machine) (place : Nat) (b : BufferId) (start : BufferState)
    (change : BufferPool → BufferPool) : Except Refusal Unit × Machine :=
  match m.obstacleAt? place b start with
  | none => (.ok (), m.modifyPool place change)
  | some (.found state) => (.error .badState, m.give (.wrongState b start state))
  | some .unknown => (.error .badState, m)

/-- Records that an acquired buffer was written into a descriptor. -/
def markPosted (m : Machine) (place : Nat) (b : BufferId) : Except Refusal Unit × Machine :=
  m.alter place b .acquired fun p => p.move b .posted

/-- Takes back a posted buffer that the adapter no longer refers to. -/
def recycle (m : Machine) (place : Nat) (b : BufferId) : Except Refusal Unit × Machine :=
  m.alter place b .posted fun p => p.move b .free

/-- Takes back an acquired buffer that was never posted. -/
def putBack (m : Machine) (place : Nat) (b : BufferId) : Except Refusal Unit × Machine :=
  m.alter place b .acquired fun p => p.move b .free

/-- Hands a posted buffer to the upper layer under a fresh handle. -/
def markDelivered (m : Machine) (place : Nat) (b : BufferId) :
    Except Refusal ReturnHandle × Machine :=
  match m.alter place b .posted fun p => p.deliver b with
  | (.error cause, m) => (.error cause, m)
  | (.ok (), m) =>
    match (m.poolAt? place).map fun p => p.handleOf b with
    | some h => (.ok h, m)
    | none => (.error .badState, m)

/-- Takes back a delivered buffer under its handle. -/
def release (m : Machine) (place : Nat) (h : ReturnHandle) : Except Refusal Unit × Machine :=
  if (m.poolAt? place).any fun p => p.honours h then
    (.ok (), m.modifyPool place fun p => p.move h.buffer .free)
  else (.error .invalidHandle, m)

/-! ## Taking a pool down -/

/-- Gives back the blocks of a pool that nobody refers to any more. -/
def reapPool (m : Machine) (place : Nat) : Machine :=
  match m.pools[place]? with
  | none => m
  | some e =>
    if e.live && !m.refersTo place then
      let posted := e.pool.tally.posted
      let m := m.giveIf (posted != 0) (.poolLostPosted e.pool.id posted)
      let m := m.freeAll e.pool.addresses
      { m with pools := m.pools.modify place fun e => { e with live := false } }
    else m

/-- Whoever made a pool drops the reference to it. -/
def dropPool (m : Machine) (place : Nat) : Machine :=
  { m with pools := m.pools.modify place fun e => { e with listed := false } }.reapPool place

/-! ## Held frames -/

/-- The frame held at a place. -/
def frameAt? (m : Machine) (i : Nat) : Option Frame := m.frames.getD i none

/-- Empties a place among the held frames. -/
def removeFrame (m : Machine) (i : Nat) : Machine :=
  { m with frames := m.frames.setIfInBounds i none }

/-- Drops a frame that is in nobody's hands: its buffer is released, and then its reference to the
pool goes. -/
def dropFrame (m : Machine) (f : Frame) : Machine :=
  match m.release f.pool f.handle with
  | (.ok (), m) => m.reapPool f.pool
  | (.error cause, m) => (m.give (.frameReleaseFailed cause)).reapPool f.pool

/-- Detaches the handle of a frame that is in nobody's hands: its reference to the pool goes, and
the buffer stays out. -/
def detachFrame (m : Machine) (f : Frame) : Machine :=
  let m := m.reapPool f.pool
  { m with handles := m.handles.push f.handle }

end Machine

end DescriptorRings
