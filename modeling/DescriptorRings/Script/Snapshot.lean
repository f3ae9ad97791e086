import DescriptorRings.Machine.Basic

/-!
# Snapshots

What the parts answer when they are asked about themselves after a step: every public figure of the
rings and the arbiter, how many buffers of each pool are where, the registers, and how much memory
is in use.
-/

namespace DescriptorRings

/-- The figures of a transmit ring. -/
structure TxFigures where
  /-- Descriptors in flight. -/
  inFlight : Nat
  /-- Descriptors that can be posted. -/
  freeSlots : Nat
  /-- Packets not reached by the posting walk. -/
  pending : Nat
  /-- Packets not completed. -/
  outstanding : Nat
  /-- The producer counter. -/
  producer : Counter
  /-- Whether the ring is cancelled. -/
  cancelled : Bool
  /-- What the ring has counted. -/
  stats : TxStats
  deriving DecidableEq, Repr

/-- The figures of a receive ring. -/
structure RxFigures where
  /-- Buffers posted. -/
  posted : Nat
  /-- Usable slots without a buffer. -/
  unfilled : Nat
  /-- Whether the ring is cancelled. -/
  cancelled : Bool
  /-- What the ring has counted. -/
  stats : RxStats
  deriving DecidableEq, Repr

/-- The figures of an arbiter. -/
structure ArbiterFigures where
  /-- Which directions are armed. -/
  armed : PerDirection Bool
  /-- What the adapter may interrupt for. -/
  mask : UInt32
  deriving DecidableEq, Repr

/-- The figures of a pool. -/
structure PoolFigures where
  /-- How many buffers are in each state. -/
  tally : Tally
  /-- How many buffers can be acquired. -/
  available : Nat
  deriving DecidableEq, Repr

/-- All figures of the machine. -/
structure Snapshot where
  /-- How many handles were ever kept. -/
  handles : Nat
  /-- The places of the frames that are held. -/
  frames : List Nat
  /-- The transmit ring. -/
  tx : Option TxFigures
  /-- The receive ring. -/
  rx : Option RxFigures
  /-- The arbiter. -/
  arbiter : Option ArbiterFigures
  /-- The pools, by place; none for a pool whose maker dropped it. -/
  pools : List (Option PoolFigures)
  /-- The registers. -/
  registers : RegisterFile
  /-- Blocks that have not been freed. -/
  live : Nat
  deriving Repr

/-- The figures of a transmit ring. -/
def TxRing.figures (r : TxRing) : TxFigures where
  inFlight := r.inFlight
  freeSlots := r.freeSlots
  pending := r.pending
  outstanding := r.outstanding
  producer := r.producer
  cancelled := r.isCancelled
  stats := r.stats

/-- The figures of a receive ring. -/
def RxRing.figures (r : RxRing) : RxFigures where
  posted := r.posted
  unfilled := r.unfilled
  cancelled := r.isCancelled
  stats := r.stats

/-- The figures of an arbiter. -/
def Arbiter.figures (a : Arbiter) : ArbiterFigures where
  armed := a.armed
  mask := a.enabledMask

/-- The figures of a pool. -/
def BufferPool.figures (p : BufferPool) : PoolFigures where
  tally := p.tally
  available := p.available

/-- The figures of a pool, as long as its maker refers to it. -/
def PoolEntry.figures? (e : PoolEntry) : Option PoolFigures :=
  if e.listed then some e.pool.figures else none

namespace Scene

/-- The places of the frames that are held. -/
def heldPlaces (s : Scene) : List Nat :=
  (List.range s.frames.size).filter fun i => (s.frames.getD i none).isSome

/-- All figures of the machine. -/
def snapshot (s : Scene) : Snapshot where
  handles := s.handles.size
  frames := s.heldPlaces
  tx := s.tx.map TxRing.figures
  rx := s.rx.map RxRing.figures
  arbiter := s.arbiter.map Arbiter.figures
  pools := s.pools.toList.map PoolEntry.figures?
  registers := s.adapter.registers
  live := s.memory.liveCount

end Scene

end DescriptorRings
